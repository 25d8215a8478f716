import MiryadCore.Users.Access
import MiryadCore.Users.ReconciliationCall
import Mathlib.Data.List.Perm.Basic

/-!
# A reconciliation that runs alone

What `syncGroupMemberships` does to the tables: on success they are `Synced`
with the claim, on failure they are as they were.
-/

namespace MiryadCore.Users

/-- A script alone with the database. -/
def runAlone {α : Type} (envs : ℕ → Conditions) (query : Db α)
    (db : Database) : Except DbErr α × Session :=
  Script.run (exec .left) envs query (.start db)

/-- The ids of the groups that a claim names. -/
def wantedIds (claim : List String) (groups : List GroupRow) : List ℤ :=
  (groups.filter fun group => group.name ∈ wantedNames claim).map GroupRow.id

/-- The tables `after` are the tables `before` with the memberships of `user`
as `claim` gives them. -/
structure Synced (user : ℤ) (claim : List String) (before after : Database) :
    Prop where
  users : after.users = before.users
  created : ∃ created, after.groups = before.groups ++ created ∧
    (created.map GroupRow.name).Nodup ∧
    ∀ name, name ∈ created.map GroupRow.name ↔
      name ∈ wantedNames claim ∧ name ∉ before.groups.map GroupRow.name
  members : ∀ groupId,
    groupId ∈ (rowsOf user after.memberships).map MembershipRow.groupId ↔
      groupId ∈ wantedIds claim after.groups
  rows : ((rowsOf user after.memberships).map MembershipRow.groupId).Nodup
  memberships : ∃ inserted,
    after.memberships = before.memberships.filter (fun row =>
        row.userId = user → row.groupId ∈ wantedIds claim after.groups) ++
      inserted ∧
    ∀ row ∈ inserted, row.userId = user ∧
      row.groupId ∉ (rowsOf user before.memberships).map MembershipRow.groupId

theorem mem_wantedIds {claim : List String} {groups : List GroupRow}
    {id : ℤ} : id ∈ wantedIds claim groups ↔
      ∃ group ∈ groups, group.name ∈ wantedNames claim ∧ group.id = id := by
  simp [wantedIds, and_assoc]

theorem Database.Consistent.rows {db : Database} (consistent : db.Consistent)
    (user : ℤ) :
    ((rowsOf user db.memberships).map MembershipRow.groupId).Nodup := by
  have sublist : (rowsOf user db.memberships).Sublist db.memberships :=
    List.filter_sublist
  have pairs := consistent.pairs.sublist (sublist.map _)
  have same : (rowsOf user db.memberships).map
      (fun row => (row.userId, row.groupId)) =
        ((rowsOf user db.memberships).map MembershipRow.groupId).map
          fun groupId => (user, groupId) := by
    rw [List.map_map]
    apply List.map_congr_left
    intro row member
    obtain ⟨_, mine⟩ := List.mem_filter.mp member
    rw [decide_eq_true_eq] at mine
    simp [mine]
  rw [same] at pairs
  exact pairs.of_map

theorem Synced.others {user : ℤ} {claim : List String}
    {before after : Database} (synced : Synced user claim before after) :
    after.memberships.filter (fun row => row.userId ≠ user) =
      before.memberships.filter (fun row => row.userId ≠ user) := by
  obtain ⟨inserted, same, own⟩ := synced.memberships
  have none : inserted.filter (fun row => row.userId ≠ user) = [] := by
    rw [List.filter_eq_nil_iff]
    intro row member
    simp [(own row member).1]
  rw [same, List.filter_append, none, List.append_nil, List.filter_filter]
  apply List.filter_congr
  intro row _
  by_cases mine : row.userId = user
  · simp [mine]
  · simp [mine]

/-- Tables that are synced with a claim are left as they are by it. -/
theorem Synced.unchanged {user : ℤ} {claim : List String}
    {before first second : Database} (once : Synced user claim before first)
    (twice : Synced user claim first second) :
    second.tables = first.tables := by
  obtain ⟨created, groups, _, named⟩ := once.created
  obtain ⟨more, groups', _, named'⟩ := twice.created
  have nothing : more = [] := by
    rw [List.eq_nil_iff_forall_not_mem]
    intro group member
    obtain ⟨wanted, missing⟩ :=
      (named' group.name).mp (List.mem_map_of_mem member)
    rw [groups, List.map_append, List.mem_append] at missing
    have known : group.name ∉ before.groups.map GroupRow.name :=
      fun old => missing (Or.inl old)
    exact missing (Or.inr ((named group.name).mpr ⟨wanted, known⟩))
  have sameGroups : second.groups = first.groups := by
    rw [groups', nothing, List.append_nil]
  obtain ⟨inserted, memberships, fresh⟩ := twice.memberships
  have noRow : inserted = [] := by
    rw [List.eq_nil_iff_forall_not_mem]
    intro row member
    obtain ⟨mine, new⟩ := fresh row member
    apply new
    rw [once.members, ← sameGroups, ← twice.members, mem_groupIds]
    refine ⟨row, ?_, mine, rfl⟩
    rw [memberships]
    exact List.mem_append_right _ member
  have sameMemberships : second.memberships = first.memberships := by
    rw [memberships, noRow, List.append_nil, List.filter_eq_self]
    intro row member
    rw [decide_eq_true_eq, sameGroups]
    intro mine
    rw [← once.members, mem_groupIds]
    exact ⟨row, member, mine, rfl⟩
  rw [Database.tables, Database.tables, twice.users, sameGroups,
    sameMemberships]

theorem GroupsSound.ofConsistent {db : Database} (consistent : db.Consistent) :
    GroupsSound db.groups db.nextGroup :=
  ⟨consistent.groupNames, consistent.groupIds, consistent.groupSequence⟩

section Alone

variable {s : Session} {pending : Pending} {plan : Plan}
  (schema : plan.base.Consistent)
  (reconciled : Reconciled plan (fun tables => tables = plan.base.tables) s
    pending)
include reconciled

theorem Reconciled.view_eq :
    s.view = ⟨plan.base.users, plan.base.groups ++ pending.groups,
      plan.base.memberships.filter (fun row => row.id ∉ pending.deleted) ++
        pending.inserted, s.db.nextUser, s.db.nextGroup,
      s.db.nextMembership⟩ := by
  have opened := reconciled.decided.opened
  have tables := opened.frame
  simp only [Database.tables, Prod.mk.injEq] at tables
  obtain ⟨users, groups, memberships⟩ := tables
  rw [Session.view, Session.pendingOrEmpty, opened.inside, Option.getD_some,
    Database.overlay, users, opened.alone, groups, memberships,
    List.append_nil]

theorem Reconciled.unmoved :
    s.db.memberships = plan.base.memberships := by
  have tables := reconciled.decided.opened.frame
  simp only [Database.tables, Prod.mk.injEq] at tables
  exact tables.2.2

theorem Reconciled.up_to_date :
    plan.current = rowsOf plan.user s.db.memberships := by
  by_cases late : ReadsAfter plan.side s.log
  · exact reconciled.decided.late late
  · rw [reconciled.decided.early late, reconciled.unmoved]

include schema

theorem Reconciled.consistent : s.view.Consistent := by
  have opened := reconciled.decided.opened
  have rows := reconciled.rows
  have view := reconciled.view_eq
  have old : ∀ row, row ∈ plan.base.memberships.filter
      (fun row => row.id ∉ pending.deleted) → row ∈ plan.base.memberships :=
    fun row member => List.mem_of_mem_filter member
  constructor
  case userSubjects =>
    rw [view]
    exact schema.userSubjects
  case userIds =>
    rw [view]
    exact schema.userIds
  case userSequence =>
    rw [view]
    intro user member
    have below := schema.userSequence user member
    exact lt_of_lt_of_le below opened.sequences.users
  case userRange =>
    rw [view]
    exact schema.userRange
  case groupNames => exact opened.sound.names
  case groupIds => exact opened.sound.ids
  case groupSequence => exact opened.sound.sequence
  case pairs =>
    rw [view, List.map_append, List.nodup_append]
    refine ⟨schema.pairs.sublist (List.filter_sublist.map _), ?_, ?_⟩
    · apply List.Nodup.of_map Prod.snd
      rw [List.map_map]
      exact rows.groups
    · intro pair kept other inserted same
      obtain ⟨row, member, rfl⟩ := List.mem_map.mp kept
      obtain ⟨new, created, rfl⟩ := List.mem_map.mp inserted
      obtain ⟨mine, missing⟩ := rows.owned new created
      apply (Plan.mem_missing.mp missing).2
      rw [reconciled.up_to_date, reconciled.unmoved, mem_groupIds]
      obtain ⟨user, group⟩ := Prod.mk.inj same
      exact ⟨row, old row member, user.trans mine, group⟩
  case membershipIds =>
    apply reconciled.distinct
    · rw [reconciled.unmoved]
      exact schema.membershipIds
    · rw [reconciled.unmoved]
      exact schema.membershipSequence
  case membershipSequence =>
    rw [view]
    intro row member
    rcases List.mem_append.mp member with kept | inserted
    · have below := schema.membershipSequence row (old row kept)
      exact lt_of_lt_of_le below opened.sequences.memberships
    · exact (rows.fresh row inserted).2
  case userKeys =>
    rw [view]
    intro row member
    rcases List.mem_append.mp member with kept | inserted
    · exact schema.userKeys row (old row kept)
    · rw [(rows.owned row inserted).1]
      exact List.mem_map.mp (rows.user (List.ne_nil_of_mem inserted))
  case groupKeys =>
    intro row member
    rw [view] at member
    rcases List.mem_append.mp member with kept | inserted
    · obtain ⟨group, known, same⟩ :=
        schema.groupKeys row (old row kept)
      refine ⟨group, ?_, same⟩
      rw [view]
      exact List.mem_append_left _ known
    · have wanted := (Plan.mem_missing.mp (rows.owned row inserted).2).1
      obtain ⟨name, _, group, visible, _, same⟩ :=
        reconciled.decided.named.cited _ wanted
      exact ⟨group, visible, same⟩

theorem Reconciled.synced {claim : List String}
    (names : plan.names = wantedNames claim) :
    Synced plan.user claim plan.base s.view := by
  have opened := reconciled.decided.opened
  have view := reconciled.view_eq
  have wanted : ∀ id, id ∈ plan.ids ↔ id ∈ wantedIds claim s.view.groups := by
    intro id
    rw [reconciled.decided.named.mem_ids opened.sound.names
      (List.Subset.refl _), names, mem_wantedIds]
  have read := reconciled.up_to_date
  have distinct : (s.db.memberships.map MembershipRow.id).Nodup := by
    rw [reconciled.unmoved]
    exact schema.membershipIds
  have whole := reconciled.consistent schema
  constructor
  case users => rw [view]
  case created =>
    have sound := opened.sound.names
    rw [view, List.map_append, List.nodup_append] at sound
    refine ⟨pending.groups, by rw [view], sound.2.1, ?_⟩
    intro name
    constructor
    · intro created
      obtain ⟨group, member, rfl⟩ := List.mem_map.mp created
      rw [← names]
      exact opened.created group member
    · intro missing
      obtain ⟨cited, unknown⟩ := missing
      obtain ⟨_, _, group, visible, rfl, _⟩ :=
        reconciled.decided.named.found name (names ▸ cited)
      rw [view] at visible
      rcases List.mem_append.mp visible with old | new
      · exact (unknown (List.mem_map_of_mem old)).elim
      · exact List.mem_map_of_mem new
  case members =>
    intro groupId
    rw [← wanted]
    exact reconciled.mem_groups distinct read
  case rows => exact whole.rows plan.user
  case memberships =>
    refine ⟨pending.inserted, ?_, ?_⟩
    · have same : ∀ row : MembershipRow,
          decide (row.userId = plan.user → row.groupId ∈ plan.ids) =
            decide (row.userId = plan.user →
              row.groupId ∈ wantedIds claim s.view.groups) := by
        intro row
        rw [decide_eq_decide, wanted]
      rw [view_memberships opened.inside, reconciled.kept distinct read,
        reconciled.unmoved]
      rw [List.filter_congr fun row _ => same row]
    · intro row inserted
      obtain ⟨mine, missing⟩ := reconciled.rows.owned row inserted
      rw [← reconciled.unmoved, ← read]
      exact ⟨mine, (Plan.mem_missing.mp missing).2⟩

end Alone

theorem Synced.memberOf {user : ℤ} {claim : List String}
    {before after : Database} (synced : Synced user claim before after)
    (consistent : after.Consistent) (name : String) :
    after.MemberOf user name ↔ name ∈ wantedNames claim := by
  constructor
  · intro found
    obtain ⟨row, member, mine, group, known, rfl, same⟩ := found
    have listed := mem_groupIds.mpr ⟨row, member, mine, rfl⟩
    rw [synced.members, mem_wantedIds] at listed
    obtain ⟨other, visible, wanted, same'⟩ := listed
    rw [List.inj_on_of_nodup_map consistent.groupIds known visible (same.trans same'.symm)]
    exact wanted
  · intro wanted
    obtain ⟨created, groups, _, named⟩ := synced.created
    have visible : ∃ group ∈ after.groups, group.name = name := by
      rw [groups]
      by_cases old : name ∈ before.groups.map GroupRow.name
      · obtain ⟨group, member, same⟩ := List.mem_map.mp old
        exact ⟨group, List.mem_append_left _ member, same⟩
      · obtain ⟨group, member, same⟩ :=
          List.mem_map.mp ((named name).mpr ⟨wanted, old⟩)
        exact ⟨group, List.mem_append_right _ member, same⟩
    obtain ⟨group, member, rfl⟩ := visible
    have listed := mem_wantedIds.mpr ⟨group, member, wanted, rfl⟩
    rw [← synced.members, mem_groupIds] at listed
    obtain ⟨row, found, mine, same⟩ := listed
    exact ⟨row, found, mine, group, member, rfl, same.symm⟩

theorem isMember_correct (db : Database) (consistent : db.Consistent)
    (envs : ℕ → Conditions) (user : ℤ) (name : String) {answer : Bool}
    (answered : (runAlone envs (isMember user name) db).1 = .ok answer) :
    answer = true ↔ db.MemberOf user name := by
  have distinct : ((Session.start db).view.groups.map GroupRow.name).Nodup := by
    rw [start_view]
    exact consistent.groupNames
  have reads : Reads id (isMember user name) (.start db)
      (fun answer => answer = true ↔
        (Session.start db).view.MemberOf user name) :=
    reads_isMember distinct user name
  have answers := Script.Meets.run (fun _ => rfl) envs reads
  have answered : (Script.run (fun e => exec .left (id e)) envs
      (isMember user name) (.start db)).1 = .ok answer := answered
  rw [answered, start_view] at answers
  exact answers.2

theorem Surroundings.alone (side : Side)
    (tables : Tables) :
    Surroundings side Eq (fun _ _ => True) (fun now => now = tables) where
  refl := fun _ => rfl
  trans := Eq.trans
  beside := by
    intro s s' same
    subst same
    exact ⟨rfl, rfl, List.prefix_rfl, id, .refl _, List.prefix_rfl,
      fun _ member _ => member, fun _ => rfl⟩
  stable := by
    intro s s' same framed
    rw [← same]
    exact framed
  quiet := fun _ => trivial

/-- A call alone: its claim on success, nothing on failure. -/
theorem sync_alone (db : Database) (consistent : db.Consistent)
    (envs : ℕ → Conditions) (user : ℤ) (claim : List String) :
    match runAlone envs (syncGroupMemberships user claim) db with
    | (.ok _, s) => Synced user claim db s.db ∧ s.db.Consistent
    | (.error _, s) => s.db.tables = db.tables := by
  have idle : Idle .left db (fun now => now = db.tables) (.start db) :=
    Idle.start (.ofConsistent consistent) rfl
  have meets : Query.Meets (exec .left) Eq (fun _ _ => True)
      (syncGroupMemberships user claim)
      (fun _ s => Synced user claim db s.db ∧ s.db.Consistent)
      (fun _ s => s.db.tables = db.tables) (.start db) := by
    apply meets_syncGroupMemberships (Surroundings.alone .left db.tables)
    case commits =>
      intro s pending ids current reconciled
      exact ⟨trivial, reconciled.synced consistent rfl,
        reconciled.consistent consistent⟩
    case lasting =>
      intro s s' same done
      rw [← same]
      exact done
    case idle => exact idle
  have ends := Script.Meets.run (fun _ => rfl) envs meets
  rw [runAlone]
  cases result : Script.run (exec .left) envs
      (syncGroupMemberships user claim) (.start db) with
  | mk answer s =>
      rw [result] at ends
      cases answer with
      | ok _ => exact ends
      | error _ => exact ends

/-- On success the memberships of the user are those of the claim, also when
it is applied again; a failure leaves the tables as they were. -/
theorem syncGroupMemberships_correct (db : Database)
    (consistent : db.Consistent) (envs : ℕ → Conditions) (user : ℤ)
    (claim : List String) :
    match runAlone envs (syncGroupMemberships user claim) db with
    | (.ok _, s) =>
        Synced user claim db s.db ∧ s.db.Consistent ∧
          s.db.memberships.filter (fun row => row.userId ≠ user) =
            db.memberships.filter (fun row => row.userId ≠ user) ∧
          (∀ envs, (runAlone envs (syncGroupMemberships user claim)
            s.db).2.db.tables = s.db.tables) ∧
          ∀ envs name answer,
            (runAlone envs (isMember user name) s.db).1 = .ok answer →
              (answer = true ↔ name ∈ wantedNames claim)
    | (.error _, s) => s.db.tables = db.tables := by
  have once := sync_alone db consistent envs user claim
  cases result : runAlone envs (syncGroupMemberships user claim) db with
  | mk answer s =>
      rw [result] at once
      cases answer with
      | error _ => exact once
      | ok _ =>
          obtain ⟨synced, after⟩ := once
          refine ⟨synced, after, synced.others, ?_, ?_⟩
          · intro envs
            have twice := sync_alone s.db after envs user claim
            cases again : runAlone envs (syncGroupMemberships user claim)
                s.db with
            | mk answer s' =>
                rw [again] at twice
                cases answer with
                | ok _ => exact synced.unchanged twice.1
                | error _ => exact twice
          · intro envs name answer answered
            rw [isMember_correct s.db after envs user name answered]
            exact synced.memberOf after name

/-- A user who is in the seeded group only. -/
def seededTables : Database where
  users := [⟨7, "alice", none, none, 0⟩]
  groups := [⟨1, "admin", 0⟩]
  memberships := [⟨1, 7, 1⟩]
  nextUser := 8
  nextGroup := 2
  nextMembership := 2

theorem seededTables_consistent : seededTables.Consistent := by
  constructor
  all_goals decide

/-- No statement fails. -/
def steady (statements : ℕ) : Conditions :=
  { fault := none, now := statements, gap := 0 }

theorem syncGroupMemberships_correct_on_seeded :
    Synced 7 [" ", "dev", "dev"] seededTables
      { users := [⟨7, "alice", none, none, 0⟩]
        groups := [⟨1, "admin", 0⟩, ⟨2, "dev", 2⟩]
        memberships := [⟨2, 7, 2⟩]
        nextUser := 8
        nextGroup := 3
        nextMembership := 3 } := by
  have correct := syncGroupMemberships_correct seededTables
    seededTables_consistent steady 7 [" ", "dev", "dev"]
  have answers : (runAlone steady
      (syncGroupMemberships 7 [" ", "dev", "dev"]) seededTables).1 =
        .ok () := by rfl
  have tables : (runAlone steady
      (syncGroupMemberships 7 [" ", "dev", "dev"]) seededTables).2.db =
        { users := [⟨7, "alice", none, none, 0⟩]
          groups := [⟨1, "admin", 0⟩, ⟨2, "dev", 2⟩]
          memberships := [⟨2, 7, 2⟩]
          nextUser := 8
          nextGroup := 3
          nextMembership := 3 } := by decide
  rw [← tables]
  cases result : runAlone steady
      (syncGroupMemberships 7 [" ", "dev", "dev"]) seededTables with
  | mk answer s =>
      rw [result] at correct answers
      cases answer with
      | error _ => cases answers
      | ok _ => exact correct.1

end MiryadCore.Users
