import MiryadCore.Users.MembershipRace
import MiryadCore.Users.MembershipSync

/-!
# What two reconciliations leave

When one call reads the memberships after the other has committed, its claim
is what remains.  Otherwise the second one to commit undoes only what its old
snapshot shows, and the memberships may be those of neither claim.
-/

namespace MiryadCore.Users

variable {base db : Database} {user : ℤ} {claim : Side → List String}
  {side : Side} {s first second : Session}

theorem memberOf_iff {name : String} :
    db.MemberOf user name ↔ ∃ group ∈ db.groups, group.name = name ∧
      group.id ∈ (rowsOf user db.memberships).map MembershipRow.groupId := by
  constructor
  · intro found
    obtain ⟨row, member, mine, group, known, named, same⟩ := found
    exact ⟨group, known, named, mem_groupIds.mpr ⟨row, member, mine, same.symm⟩⟩
  · intro found
    obtain ⟨group, known, named, listed⟩ := found
    obtain ⟨row, member, mine, same⟩ := mem_groupIds.mp listed
    exact ⟨row, member, mine, group, known, named, same.symm⟩

theorem Named.mem_of_group {names : List String} {ids : List ℤ}
    {groups : List GroupRow} {next : ℤ} (sound : GroupsSound groups next)
    (grows : s.view.groups ⊆ groups) (named : Named s names ids)
    {group : GroupRow} (member : group ∈ groups) :
    group.id ∈ ids ↔ group.name ∈ names := by
  rw [named.mem_ids sound.names grows]
  constructor
  · intro found
    obtain ⟨other, listed, wanted, same⟩ := found
    rw [← List.inj_on_of_nodup_map sound.ids listed member same]
    exact wanted
  · intro wanted
    exact ⟨group, member, wanted, rfl⟩

theorem Reconciled.of_alone {plan : Plan} {pending : Pending}
    (reconciled : Reconciled plan (fun _ => True) s pending)
    (alone : ∀ side, ¬ Committed side s.log) :
    s.db.memberships = plan.base.memberships ∧
      plan.current = rowsOf plan.user plan.base.memberships := by
  have early : ¬ ReadsAfter plan.side s.log :=
    fun reads => alone _ reads.committed
  exact ⟨reconciled.decided.opened.initial (alone _),
    reconciled.decided.early early⟩

section Second

variable {plan plan' : Plan} {pending pending' : Pending}
  (schema : base.Consistent) (started : plan.base = base)
  (started' : plan'.base = base) (same : plan'.user = plan.user)
  (reconciled : Reconciled plan (fun _ => True) first pending)
  (reconciled' : Reconciled plan' (fun _ => True) second pending')
  (alone : ∀ side, ¬ Committed side first.log)
  (moved : second.db.memberships = first.view.memberships)
include schema started reconciled reconciled' alone moved

theorem groups_of_late (late : ReadsAfter plan'.side second.log)
    {groupId : ℤ} :
    groupId ∈ (rowsOf plan'.user second.view.memberships).map
      MembershipRow.groupId ↔ groupId ∈ plan'.ids := by
  obtain ⟨unmoved, _⟩ := reconciled.of_alone alone
  apply reconciled'.mem_groups
  · rw [moved]
    apply reconciled.distinct
    · rw [unmoved, started]
      exact schema.membershipIds
    · rw [unmoved, started]
      exact schema.membershipSequence
  · exact reconciled'.decided.late late

include started' same

/-- The second call has read the same rows as the first one. -/
theorem groups_of_early (early : ¬ ReadsAfter plan'.side second.log)
    {groupId : ℤ} :
    groupId ∈ (rowsOf plan'.user second.view.memberships).map
      MembershipRow.groupId ↔
      (groupId ∈ (rowsOf plan.user base.memberships).map
          MembershipRow.groupId ∧
        groupId ∈ plan.ids ∧ groupId ∈ plan'.ids) ∨
      (groupId ∉ (rowsOf plan.user base.memberships).map
          MembershipRow.groupId ∧
        (groupId ∈ plan.ids ∨ groupId ∈ plan'.ids)) := by
  obtain ⟨unmoved, read⟩ := reconciled.of_alone alone
  have read' := reconciled'.decided.early early
  rw [started'] at read'
  rw [started] at unmoved read
  have distinct : (first.db.memberships.map MembershipRow.id).Nodup := by
    rw [unmoved]
    exact schema.membershipIds
  have upToDate : plan.current = rowsOf plan.user first.db.memberships := by
    rw [read, unmoved]
  have visible : ∀ row, row ∈ second.view.memberships ↔
      (row ∈ base.memberships ∧
          (row.userId = plan.user → row.groupId ∈ plan.ids) ∨
        row ∈ pending.inserted) ∧ row.id ∉ pending'.deleted ∨
      row ∈ pending'.inserted := by
    intro row
    rw [view_memberships reconciled'.decided.opened.inside, moved,
      view_memberships reconciled.decided.opened.inside,
      reconciled.kept distinct upToDate, unmoved]
    simp only [List.mem_append, List.mem_filter, decide_eq_true_eq]
  have deleted : ∀ {row}, row ∈ base.memberships →
      (row.id ∈ pending'.deleted ↔
        row.userId = plan'.user ∧ row.groupId ∉ plan'.ids) :=
    fun member => reconciled'.mem_deleted schema.membershipIds read' member
  rw [mem_groupIds]
  constructor
  · intro found
    obtain ⟨row, member, mine, rfl⟩ := found
    rcases (visible row).mp member with ⟨old | inserted, kept⟩ | inserted'
    · apply Or.inl
      refine ⟨mem_groupIds.mpr ⟨row, old.1, mine.trans same, rfl⟩,
        old.2 (mine.trans same), ?_⟩
      by_contra unwanted
      exact kept ((deleted old.1).mpr ⟨mine, unwanted⟩)
    · apply Or.inr
      obtain ⟨wanted, missing⟩ :=
        Plan.mem_missing.mp (reconciled.rows.owned row inserted).2
      exact ⟨read ▸ missing, Or.inl wanted⟩
    · apply Or.inr
      obtain ⟨wanted, missing⟩ :=
        Plan.mem_missing.mp (reconciled'.rows.owned row inserted').2
      rw [read', same] at missing
      exact ⟨missing, Or.inr wanted⟩
  · intro expected
    rcases expected with ⟨held, wanted, wanted'⟩ | ⟨missing, either⟩
    · obtain ⟨row, member, mine, rfl⟩ := mem_groupIds.mp held
      refine ⟨row, (visible row).mpr (Or.inl ⟨Or.inl ⟨member,
        fun _ => wanted⟩, ?_⟩), mine.trans same.symm, rfl⟩
      rw [deleted member]
      exact fun stale => stale.2 wanted'
    · rcases either with wanted | wanted'
      · have inserted := (reconciled.mem_inserted upToDate).mpr
          (Plan.mem_missing.mpr ⟨wanted, read ▸ missing⟩)
        obtain ⟨row, member, rfl⟩ := List.mem_map.mp inserted
        refine ⟨row, (visible row).mpr (Or.inl ⟨Or.inr member, ?_⟩),
          (reconciled.rows.owned row member).1.trans same.symm, rfl⟩
        rw [reconciled'.deleted, List.mem_reverse]
        intro stale
        obtain ⟨old, listed, sameId⟩ := List.mem_map.mp stale
        rw [Plan.mem_stale, read', rowsOf, List.mem_filter] at listed
        have below := schema.membershipSequence old listed.1.1
        have above := (reconciled.rows.fresh row member).1
        rw [started] at above
        omega
      · have missing' : groupId ∈ plan'.missing := by
          rw [Plan.mem_missing, read', same]
          exact ⟨wanted', missing⟩
        rcases reconciled'.settled groupId missing' with own | beside
        · obtain ⟨row, member, rfl⟩ := List.mem_map.mp own
          exact ⟨row, (visible row).mpr (Or.inr member),
            (reconciled'.rows.owned row member).1, rfl⟩
        · obtain ⟨_, row, member, mine, rfl, kept⟩ := beside
          refine ⟨row, ?_, mine, rfl⟩
          rw [view_memberships reconciled'.decided.opened.inside]
          apply List.mem_append_left
          rw [List.mem_filter, decide_eq_true_eq]
          exact ⟨member, kept⟩

end Second

theorem forall_side (side : Side) {p : Side → Prop} :
    (∀ side, p side) ↔ p side ∧ p side.other := by
  constructor
  · exact fun all => ⟨all _, all _⟩
  · intro both side'
    rcases eq_or_other side side' with rfl | rfl
    · exact both.1
    · exact both.2

theorem exists_side (side : Side) {p : Side → Prop} :
    (∃ side, p side) ↔ p side ∨ p side.other := by
  constructor
  · intro found
    obtain ⟨side', holds⟩ := found
    rcases eq_or_other side side' with rfl | rfl
    · exact Or.inl holds
    · exact Or.inr holds
  · intro either
    rcases either with own | other
    · exact ⟨_, own⟩
    · exact ⟨_, other⟩

theorem base_memberOf {next : ℤ} (schema : base.Consistent)
    (sound : GroupsSound db.groups next) (known : base.groups ⊆ db.groups)
    {group : GroupRow} (member : group ∈ db.groups) :
    base.MemberOf user group.name ↔
      group.id ∈ (rowsOf user base.memberships).map
        MembershipRow.groupId := by
  rw [mem_groupIds]
  constructor
  · intro found
    obtain ⟨row, listed, mine, other, old, named, same⟩ := found
    rw [← List.inj_on_of_nodup_map sound.names (known old) member named]
    exact ⟨row, listed, mine, same.symm⟩
  · intro found
    obtain ⟨row, listed, mine, same⟩ := found
    obtain ⟨other, old, sameId⟩ := schema.groupKeys row listed
    have one := List.inj_on_of_nodup_map sound.ids (known old) member
      (sameId.trans same)
    exact ⟨row, listed, mine, other, old, congrArg GroupRow.name one, sameId⟩

/-- The outcome of two calls that have both committed. -/
theorem History.outcome {log : List Event} {next : ℤ}
    (schema : base.Consistent) (sound : GroupsSound db.groups next)
    (committed : ∀ side, Committed side log)
    (history : History base user claim db log) :
    (∃ side, ReadsAfter side log ∧
      ∀ name, db.MemberOf user name ↔ name ∈ wantedNames (claim side)) ∨
    (∀ side, ¬ ReadsAfter side log) ∧
      ∀ name, db.MemberOf user name ↔
        (base.MemberOf user name ∧
          ∀ side, name ∈ wantedNames (claim side)) ∨
        (¬ base.MemberOf user name ∧
          ∃ side, name ∈ wantedNames (claim side)) := by
  cases history with
  | untouched alone => exact (alone .left (committed .left)).elim
  | once side first _ _ _ waiting => exact (waiting (committed _)).elim
  | twice side first second committing committing' alone _ before grown groups
      groups' moved moved' =>
      obtain ⟨ids, current, pending, reconciled⟩ := committing
      obtain ⟨ids', current', pending', reconciled'⟩ := committing'
      have later : first.view.groups ⊆ db.groups := by
        intro group member
        exact groups' (List.mem_append_left _ (groups member))
      have known : base.groups ⊆ db.groups := by
        intro group member
        apply groups'
        apply List.mem_append_left
        exact reconciled'.decided.opened.groups.subset member
      have wanted : ∀ {group}, group ∈ db.groups →
          (group.id ∈ ids ↔ group.name ∈ wantedNames (claim side)) :=
        reconciled.decided.named.mem_of_group sound later
      have wanted' : ∀ {group}, group ∈ db.groups →
          (group.id ∈ ids' ↔ group.name ∈ wantedNames (claim side.other)) :=
        reconciled'.decided.named.mem_of_group sound groups'
      have visible : ∀ name ∈ wantedNames (claim side),
          ∃ group ∈ db.groups, group.name = name := by
        intro name cited
        obtain ⟨_, _, group, member, named, _⟩ :=
          reconciled.decided.named.found name cited
        exact ⟨group, later member, named⟩
      have visible' : ∀ name ∈ wantedNames (claim side.other),
          ∃ group ∈ db.groups, group.name = name := by
        intro name cited
        obtain ⟨_, _, group, member, named, _⟩ :=
          reconciled'.decided.named.found name cited
        exact ⟨group, groups' member, named⟩
      have readsOnce : ¬ ReadsAfter side log := by
        rw [readsAfter_of_earlier before reconciled.decided.read]
        exact fun reads => alone _ reads.committed
      have readsTwice : ReadsAfter side.other log ↔
          ReadsAfter side.other second.log :=
        readsAfter_of_earlier grown reconciled'.decided.read
      by_cases late : ReadsAfter side.other second.log
      · apply Or.inl
        refine ⟨side.other, readsTwice.mpr late, ?_⟩
        intro name
        have held : ∀ {groupId}, groupId ∈ (rowsOf user db.memberships).map
            MembershipRow.groupId ↔ groupId ∈ ids' := by
          rw [moved']
          exact groups_of_late schema rfl reconciled reconciled' alone moved
            late
        rw [memberOf_iff]
        constructor
        · intro found
          obtain ⟨group, member, rfl, listed⟩ := found
          exact (wanted' member).mp (held.mp listed)
        · intro cited
          obtain ⟨group, member, rfl⟩ := visible' name cited
          exact ⟨group, member, rfl, held.mpr ((wanted' member).mpr cited)⟩
      · apply Or.inr
        refine ⟨?_, ?_⟩
        · intro side'
          rcases eq_or_other side side' with rfl | rfl
          · exact readsOnce
          · rw [readsTwice]
            exact late
        intro name
        have held : ∀ {group}, group ∈ db.groups →
            (group.id ∈ (rowsOf user db.memberships).map
                MembershipRow.groupId ↔
              (base.MemberOf user group.name ∧
                ∀ side, group.name ∈ wantedNames (claim side)) ∨
              (¬ base.MemberOf user group.name ∧
                ∃ side, group.name ∈ wantedNames (claim side))) := by
          intro group member
          rw [base_memberOf schema sound known member, moved',
            forall_side side, exists_side side, ← wanted member,
            ← wanted' member]
          apply groups_of_early schema _ _ _ reconciled reconciled' alone
            moved late
          · rfl
          · rfl
          · rfl
        rw [memberOf_iff]
        constructor
        · intro found
          obtain ⟨group, member, rfl, listed⟩ := found
          exact (held member).mp listed
        · intro expected
          have cited : ∃ side, name ∈ wantedNames (claim side) := by
            rcases expected with ⟨_, all⟩ | ⟨_, some⟩
            · exact ⟨side, all side⟩
            · exact some
          have named : ∃ group ∈ db.groups, group.name = name := by
            rcases (exists_side side).mp cited with own | other
            · exact visible name own
            · exact visible' name other
          obtain ⟨group, member, rfl⟩ := named
          exact ⟨group, member, rfl, (held member).mpr expected⟩

/-- What the claim of `side` asks is also what remains when neither call has
seen the other: it keeps no group that the other claim revokes, and the other
claim adds no group to it. -/
def Prevails (base : Database) (user : ℤ) (claim : Side → List String)
    (side : Side) : Prop :=
  (∀ name ∈ wantedNames (claim side), base.MemberOf user name →
    name ∈ wantedNames (claim side.other)) ∧
  ∀ name ∈ wantedNames (claim side.other), ¬ base.MemberOf user name →
    name ∈ wantedNames (claim side)

theorem prevails_iff {names : String → Prop}
    (mixed : ∀ name, names name ↔
      (base.MemberOf user name ∧ ∀ side, name ∈ wantedNames (claim side)) ∨
      (¬ base.MemberOf user name ∧
        ∃ side, name ∈ wantedNames (claim side))) (side : Side) :
    (∀ name, names name ↔ name ∈ wantedNames (claim side)) ↔
      Prevails base user claim side := by
  constructor
  · intro same
    constructor
    · intro name cited held
      rcases (mixed name).mp ((same name).mpr cited) with ⟨_, all⟩ | ⟨new, _⟩
      · exact all side.other
      · exact (new held).elim
    · intro name cited new
      exact (same name).mp ((mixed name).mpr (Or.inr ⟨new, _, cited⟩))
  · intro prevails name
    obtain ⟨keeps, adds⟩ := prevails
    rw [mixed, forall_side side, exists_side side]
    constructor
    · intro expected
      rcases expected with ⟨_, own, _⟩ | ⟨new, own | other⟩
      · exact own
      · exact own
      · exact adds name other new
    · intro cited
      by_cases held : base.MemberOf user name
      · exact Or.inl ⟨held, cited, keeps name cited held⟩
      · exact Or.inr ⟨held, Or.inl cited⟩

/-- Of two calls that both succeed, the memberships are those of one claim
exactly when a call reads them after the other has committed, or the claims
agree on what the calls would undo of each other. -/
theorem race_leaves_one_claim_iff (base : Database) (schema : base.Consistent)
    (user : ℤ) (claim : Side → List String)
    (schedule : List (Side × Conditions))
    (succeeded : ∀ side, ((Race.start base user claim).run schedule).answer
      side = some (.ok ())) :
    (∃ side, ∀ name,
      ((Race.start base user claim).run schedule).db.MemberOf user name ↔
        name ∈ wantedNames (claim side)) ↔
      (∃ side, ReadsAfter side
        ((Race.start base user claim).run schedule).log) ∨
      ∃ side, Prevails base user claim side := by
  have safe := (Race.Safe.start schema user claim).run schedule
  have sound := (safe.groups .left).sublist
    ((List.sublist_append_left _ _).trans (List.sublist_append_left _ _))
    le_rfl
  have committed : ∀ side, Committed side
      ((Race.start base user claim).run schedule).log :=
    fun side => safe.committed (succeeded side)
  rcases safe.history.outcome schema sound committed with
    ⟨side, reads, same⟩ | ⟨apart, mixed⟩
  · constructor
    · exact fun _ => Or.inl ⟨side, reads⟩
    · exact fun _ => ⟨side, same⟩
  · constructor
    · intro one
      obtain ⟨side, same⟩ := one
      exact Or.inr ⟨side, (prevails_iff mixed side).mp same⟩
    · intro condition
      rcases condition with ⟨side, reads⟩ | ⟨side, prevails⟩
      · exact (apart side reads).elim
      · exact ⟨side, (prevails_iff mixed side).mpr prevails⟩

/-- A user without memberships. -/
def newcomerTables : Database where
  users := [⟨7, "alice", none, none, 0⟩]
  groups := [⟨1, "admin", 0⟩, ⟨2, "dev", 0⟩]
  memberships := []
  nextUser := 8
  nextGroup := 3
  nextMembership := 1

theorem newcomerTables_consistent : newcomerTables.Consistent := by
  constructor
  all_goals decide

def oneGroupEach : Side → List String
  | .left => ["admin"]
  | .right => ["dev"]

/-- Both calls read the memberships before either of them commits. -/
def overlapping : List (Side × Conditions) :=
  [.left, .left, .left, .right, .right, .right, .left, .left, .right,
    .right].map fun side => (side, { fault := none, now := 0, gap := 0 })

theorem overlapping_succeeds (side : Side) :
    ((Race.start newcomerTables 7 oneGroupEach).run overlapping).answer side =
      some (.ok ()) := by
  cases side
  · rfl
  · rfl

theorem overlapping_leaves_both (side : Side) (name : String)
    (cited : name ∈ wantedNames (oneGroupEach side)) :
    ((Race.start newcomerTables 7 oneGroupEach).run overlapping).db.MemberOf 7
      name := by
  have tables : ((Race.start newcomerTables 7 oneGroupEach).run
      overlapping).db =
        { newcomerTables with
          memberships := [⟨1, 7, 1⟩, ⟨2, 7, 2⟩]
          nextMembership := 3 } := by decide
  rw [tables]
  cases side with
  | left =>
      obtain rfl : name = "admin" := by simpa [oneGroupEach, wantedNames] using
        (List.mem_filter.mp cited).1
      exact ⟨⟨1, 7, 1⟩, by simp, rfl, ⟨1, "admin", 0⟩,
        by simp [newcomerTables], rfl, rfl⟩
  | right =>
      obtain rfl : name = "dev" := by simpa [oneGroupEach, wantedNames] using
        (List.mem_filter.mp cited).1
      exact ⟨⟨2, 7, 2⟩, by simp, rfl, ⟨2, "dev", 0⟩,
        by simp [newcomerTables], rfl, rfl⟩

/-- Two calls that both succeed may leave a mixture of their claims. -/
theorem race_leaves_a_mixture :
    ¬ ∀ (base : Database) (_ : base.Consistent) (user : ℤ)
      (claim : Side → List String) (schedule : List (Side × Conditions)),
      (∀ side, ((Race.start base user claim).run schedule).answer side =
        some (.ok ())) →
      ∃ side, ∀ name,
        ((Race.start base user claim).run schedule).db.MemberOf user name ↔
          name ∈ wantedNames (claim side) := by
  intro always
  obtain ⟨side, same⟩ := always newcomerTables newcomerTables_consistent 7
    oneGroupEach overlapping overlapping_succeeds
  have left := (same "admin").mp
    (overlapping_leaves_both .left "admin" (by decide))
  have right := (same "dev").mp
    (overlapping_leaves_both .right "dev" (by decide))
  cases side with
  | left => exact absurd right (by decide)
  | right => exact absurd left (by decide)

theorem race_leaves_one_claim_iff_on_overlapping :
    (∃ side, ∀ name,
      ((Race.start newcomerTables 7 oneGroupEach).run
        overlapping).db.MemberOf 7 name ↔
          name ∈ wantedNames (oneGroupEach side)) ↔
      (∃ side, ReadsAfter side
        ((Race.start newcomerTables 7 oneGroupEach).run overlapping).log) ∨
      ∃ side, Prevails newcomerTables 7 oneGroupEach side :=
  race_leaves_one_claim_iff newcomerTables newcomerTables_consistent 7
    oneGroupEach overlapping overlapping_succeeds

end MiryadCore.Users
