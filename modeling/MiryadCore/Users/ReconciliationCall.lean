import MiryadCore.Users.NameResolution

/-!
# The call after its snapshot

Once the memberships are read, the call deletes the stale rows, inserts the
missing ones and commits.  `Reconciled` is what holds just before the commit,
whatever other connections did in between.
-/

namespace MiryadCore.Users

/-- What a call works from: the rows it began on, its claim, and once these
are known the ids of the wanted groups and the rows of its user. -/
structure Plan where
  side : Side
  base : Database
  names : List String
  user : ℤ
  ids : List ℤ
  current : List MembershipRow

def Plan.stale (plan : Plan) : List MembershipRow :=
  staleRows plan.current plan.ids

def Plan.missing (plan : Plan) : List ℤ :=
  missingIds plan.current plan.ids

variable {plan : Plan} {rely guar : Session → Session → Prop}
  {frame : Tables → Prop}
  {s s' : Session} {pending : Pending}

theorem Plan.mem_stale {row : MembershipRow} :
    row ∈ plan.stale ↔ row ∈ plan.current ∧ row.groupId ∉ plan.ids := by
  simp [Plan.stale, staleRows]

theorem Plan.mem_missing {groupId : ℤ} :
    groupId ∈ plan.missing ↔
      groupId ∈ plan.ids ∧ groupId ∉ plan.current.map MembershipRow.groupId := by
  simp [Plan.missing, missingIds]

/-- The memberships are read, before or after the commit of the other call. -/
structure Decided (plan : Plan)
    (frame : Tables → Prop)
    (s : Session) (pending : Pending) : Prop where
  opened : Open plan.side plan.base plan.names frame s pending
  read : .selected plan.side ∈ s.log
  early : ¬ ReadsAfter plan.side s.log →
    plan.current = rowsOf plan.user plan.base.memberships
  late : ReadsAfter plan.side s.log →
    plan.current = rowsOf plan.user s.db.memberships
  named : Named s plan.names plan.ids

theorem Decided.wait (around : Surroundings plan.side rely guar frame)
    (between : rely s s') (decided : Decided plan frame s pending) :
    Decided plan frame s' pending where
  opened := decided.opened.beside (around.beside between)
    (around.stable between)
  read := (around.beside between).log.subset decided.read
  early := by
    rw [readsAfter_of_earlier (around.beside between).log decided.read]
    exact decided.early
  late := by
    rw [readsAfter_of_earlier (around.beside between).log decided.read]
    intro reads
    rw [(around.beside between).memberships (Or.inl reads.committed)]
    exact decided.late reads
  named := decided.named.mono
    ((around.beside between).view_groups_subset decided.opened.inside)

theorem Decided.keeps (around : Surroundings plan.side rely guar frame)
    (decided : Decided plan frame s pending) (conditions : Conditions)
    {request : Statement} (notCommit : request ≠ .commit) :
    guar s (exec plan.side conditions s request).2 :=
  around.quiet (exec_quiet decided.opened.inside decided.opened.uncommitted
    conditions notCommit)

/-- A statement on memberships changes nothing else that the call knows. -/
theorem Decided.update {next : ℤ} {deleted : List ℤ}
    {inserted : List MembershipRow} (ahead : s.db.nextMembership ≤ next)
    (decided : Decided plan frame s pending) :
    Decided plan frame
      { s with
        db := { s.db with nextMembership := next }
        pending := some { pending with deleted, inserted } }
      { pending with deleted, inserted } := by
  have opened := decided.opened
  have visible : (⟨{ s.db with nextMembership := next },
      some { pending with deleted, inserted }, s.log⟩ : Session).view.groups =
        s.view.groups := by
    rw [view_groups rfl, view_groups opened.inside]
  constructor
  case opened =>
    constructor
    case inside => rfl
    case frame => exact opened.frame
    case users => exact opened.users
    case alone => exact opened.alone
    case groups => exact opened.groups
    case created => exact opened.created
    case sound =>
      rw [Session.Sound, visible]
      exact opened.sound
    case sequences =>
      exact opened.sequences.trans ⟨le_rfl, le_rfl, ahead⟩
    case uncommitted => exact opened.uncommitted
    case initial => exact opened.initial
  case read => exact decided.read
  case early => exact decided.early
  case late => exact decided.late
  case named =>
    apply decided.named.mono
    rw [visible]
    exact fun _ member => member

/-- Reading the memberships decides the plan. -/
theorem Resolving.decided {side : Side} {base : Database}
    {names : List String} {ids : List ℤ} (user : ℤ)
    (resolving : Resolving side base names frame s)
    (named : Named s names ids) :
    ∃ pending, pending.deleted = [] ∧ pending.inserted = [] ∧
      Decided ⟨side, base, names, user, ids, rowsOf user s.view.memberships⟩
        frame (s.record (.selected side)) pending := by
  obtain ⟨pending, opened, deleted, inserted⟩ := resolving.opened
  have whole : s.view.memberships = s.db.memberships := by
    simp [view_memberships opened.inside, deleted, inserted]
  have reads : ReadsAfter side (s.record (.selected side)).log ↔
      Committed side.other s.log :=
    readsAfter_of_unread resolving.unread []
  refine ⟨pending, deleted, inserted, ?_⟩
  constructor
  case opened =>
    constructor
    case inside => exact opened.inside
    case frame => exact opened.frame
    case users => exact opened.users
    case alone => exact opened.alone
    case groups => exact opened.groups
    case created => exact opened.created
    case sound => exact opened.sound
    case sequences => exact opened.sequences
    case uncommitted =>
      intro committed
      obtain ⟨before, other, member⟩ := committed
      rcases List.mem_append.mp member with old | new
      · exact opened.uncommitted ⟨before, other, old⟩
      · simp at new
    case initial =>
      intro alone
      apply opened.initial
      intro committed
      exact alone (committed.mono (List.prefix_append _ _))
  case read => exact List.mem_append_right _ (List.mem_singleton_self _)
  case early =>
    intro early
    rw [reads] at early
    rw [whole, opened.initial early]
  case late =>
    intro _
    rw [whole]
    rfl
  case named => exact ⟨named.found, named.cited⟩

/-- The rows `deleted` are deleted, and none is inserted. -/
def Deleting (plan : Plan)
    (frame : Tables → Prop)
    (deleted : List ℤ) (s : Session) : Prop :=
  ∃ pending, Decided plan frame s pending ∧ pending.deleted = deleted ∧
    pending.inserted = []

theorem Deleting.wait (around : Surroundings plan.side rely guar frame)
    {deleted : List ℤ} (between : rely s s')
    (deleting : Deleting plan frame deleted s) :
    Deleting plan frame deleted s' := by
  obtain ⟨pending, decided, same⟩ := deleting
  exact ⟨pending, decided.wait around between, same⟩

theorem meets_deleteStale (around : Surroundings plan.side rely guar frame)
    {stale : List MembershipRow} {deleted : List ℤ}
    (deleting : Deleting plan frame deleted s) :
    Query.Meets (exec plan.side) rely guar (deleteStale stale)
      (fun _ => Deleting plan frame
        ((stale.map MembershipRow.id).reverse ++ deleted))
      (fun _ => Failed plan.side frame) s := by
  induction stale generalizing s deleted with
  | nil =>
      apply Query.Meets.pure
      intro later more
      exact deleting.wait around more
  | cons membership stale induction =>
      apply Query.Meets.ask_bind
      case keeps =>
        intro s1 between conditions
        obtain ⟨pending, decided, _⟩ := deleting.wait around between
        exact decided.keeps around conditions (by simp)
      case refused =>
        intro s1 between conditions error after refused later more
        obtain rfl := exec_error refused
        obtain ⟨pending, decided, _⟩ := deleting.wait around between
        exact decided.opened.failed.wait around more
      case replied =>
        intro s1 between conditions reply after replied
        obtain ⟨pending, decided, rfl, empty⟩ := deleting.wait around between
        obtain rfl := perform_deleteMembership decided.opened.inside
          (exec_ok replied)
        rw [List.map_cons, List.reverse_cons, List.append_assoc]
        apply induction
        exact ⟨_, decided.update le_rfl, rfl, by simp [empty]⟩

/-- The rows that the call has inserted. -/
structure Inserted (plan : Plan) (next : ℤ) (inserted : List MembershipRow) :
    Prop where
  owned : ∀ row ∈ inserted, row.userId = plan.user ∧
    row.groupId ∈ plan.missing
  user : inserted ≠ [] → plan.user ∈ plan.base.users.map UserRow.id
  fresh : ∀ row ∈ inserted, plan.base.nextMembership ≤ row.id ∧ row.id < next
  ids : (inserted.map MembershipRow.id).Nodup
  groups : (inserted.map MembershipRow.groupId).Nodup

theorem Inserted.append {next id groupId : ℤ} {inserted : List MembershipRow}
    (rows : Inserted plan next inserted)
    (started : plan.base.nextMembership ≤ next) (drawn : next ≤ id)
    (known : plan.user ∈ plan.base.users.map UserRow.id) (missing : groupId ∈ plan.missing)
    (absent : groupId ∉ inserted.map MembershipRow.groupId) :
    Inserted plan (id + 1) (inserted ++ [⟨id, plan.user, groupId⟩]) where
  owned := by
    intro row member
    rcases List.mem_append.mp member with old | new
    · exact rows.owned row old
    · rw [List.mem_singleton.mp new]
      exact ⟨rfl, missing⟩
  user := fun _ => known
  fresh := by
    intro row member
    rcases List.mem_append.mp member with old | new
    · have bounds := rows.fresh row old
      omega
    · rw [List.mem_singleton.mp new]
      exact ⟨started.trans drawn, Int.lt_succ id⟩
  ids := by
    rw [List.map_append, List.nodup_append]
    refine ⟨rows.ids, by simp, ?_⟩
    intro old member new created same
    obtain ⟨row, listed, rfl⟩ := List.mem_map.mp member
    have bounds := rows.fresh row listed
    simp only [List.map_cons, List.map_nil, List.mem_singleton] at created
    omega
  groups := by
    rw [List.map_append, List.nodup_append]
    refine ⟨rows.groups, by simp, ?_⟩
    intro old member new created same
    simp only [List.map_cons, List.map_nil, List.mem_singleton] at created
    exact absent (created ▸ same ▸ member)

/-- The user is in the group, by a row of the call or of the other one. -/
def Settled (plan : Plan) (s : Session) (pending : Pending) (groupId : ℤ) :
    Prop :=
  groupId ∈ pending.inserted.map MembershipRow.groupId ∨
    Committed plan.side.other s.log ∧
      ∃ row ∈ s.db.memberships, row.userId = plan.user ∧
        row.groupId = groupId ∧ row.id ∉ pending.deleted

/-- The stale rows are deleted, and the groups of `settled` are settled. -/
structure Inserting (plan : Plan)
    (frame : Tables → Prop)
    (settled : List ℤ) (s : Session) (pending : Pending) : Prop where
  decided : Decided plan frame s pending
  deleted : pending.deleted = (plan.stale.map MembershipRow.id).reverse
  rows : Inserted plan s.db.nextMembership pending.inserted
  settled : ∀ groupId ∈ settled, Settled plan s pending groupId

theorem Inserting.wait (around : Surroundings plan.side rely guar frame)
    {settled : List ℤ} (between : rely s s')
    (inserting : Inserting plan frame settled s pending) :
    Inserting plan frame settled s' pending where
  decided := inserting.decided.wait around between
  deleted := inserting.deleted
  rows := { inserting.rows with
    fresh := by
      intro row member
      have bounds := inserting.rows.fresh row member
      have ahead := (around.beside between).sequences.memberships
      omega }
  settled := by
    intro groupId member
    rcases inserting.settled groupId member with own | ⟨committed, other⟩
    · exact Or.inl own
    · apply Or.inr
      have beside := around.beside between
      rw [beside.memberships (Or.inl committed)]
      exact ⟨committed.mono beside.log, other⟩

/-- A missing membership is inserted, unless the other call has done so. -/
theorem Inserting.inserted {settled : List ℤ} {groupId : ℤ}
    {conditions : Conditions} (missing : groupId ∈ plan.missing)
    (inserting : Inserting plan frame settled s pending)
    (inserted : s.insertMembership conditions plan.user groupId = .ok s') :
    ∃ pending, Inserting plan frame (settled ++ [groupId]) s' pending := by
  have opened := inserting.decided.opened
  rcases insertMembership_ok opened.inside inserted with
    ⟨rfl, row, visible, user, group⟩ | ⟨id, drawn, absent, known, rfl⟩
  · refine ⟨pending, { inserting with settled := ?_ }⟩
    intro other member
    rcases List.mem_append.mp member with old | new
    · exact inserting.settled other old
    · rw [List.mem_singleton.mp new]
      rw [view_memberships opened.inside] at visible
      rcases List.mem_append.mp visible with committed | own
      · obtain ⟨committed, kept⟩ := List.mem_filter.mp committed
        refine Or.inr ⟨?_, row, committed, user, group, by simpa using kept⟩
        by_contra alone
        have early : ¬ ReadsAfter plan.side s'.log :=
          fun reads => alone reads.committed
        apply (Plan.mem_missing.mp missing).2
        rw [inserting.decided.early early, ← opened.initial alone]
        apply List.mem_map.mpr
        exact ⟨row, List.mem_filter.mpr ⟨committed, by simpa using user⟩,
          group⟩
      · exact Or.inl (List.mem_map.mpr ⟨row, own, group⟩)
  · refine ⟨_, inserting.decided.update
      (drawn.trans (Int.le_of_lt (Int.lt_succ id))), inserting.deleted, ?_,
      ?_⟩
    · rw [view_users opened.inside, opened.users, opened.alone,
        List.append_nil] at known
      apply inserting.rows.append opened.sequences.memberships drawn known missing
      intro own
      obtain ⟨row, member, same⟩ := List.mem_map.mp own
      apply absent row
      · rw [view_memberships opened.inside]
        exact List.mem_append_right _ member
      · exact ⟨(inserting.rows.owned row member).1, same⟩
    · intro other member
      rcases List.mem_append.mp member with old | new
      · rcases inserting.settled other old with own | beside
        · apply Or.inl
          rw [List.map_append]
          exact List.mem_append_left _ own
        · exact Or.inr beside
      · apply Or.inl
        rw [List.mem_singleton.mp new]
        simp

theorem meets_insertMissing (around : Surroundings plan.side rely guar frame)
    {missing settled : List ℤ} (included : missing ⊆ plan.missing)
    (inserting : ∃ pending, Inserting plan frame settled s pending) :
    Query.Meets (exec plan.side) rely guar (insertMissing plan.user missing)
      (fun _ s' =>
        ∃ pending, Inserting plan frame (settled ++ missing) s' pending)
      (fun _ => Failed plan.side frame) s := by
  induction missing generalizing s settled with
  | nil =>
      obtain ⟨pending, inserting⟩ := inserting
      apply Query.Meets.pure
      intro later more
      rw [List.append_nil]
      exact ⟨pending, inserting.wait around more⟩
  | cons groupId missing induction =>
      obtain ⟨head, tail⟩ := List.cons_subset.mp included
      obtain ⟨pending, inserting⟩ := inserting
      apply Query.Meets.ask_bind
      case keeps =>
        intro s1 between conditions
        exact (inserting.wait around between).decided.keeps around conditions
          (by simp)
      case refused =>
        intro s1 between conditions error after refused later more
        obtain rfl := exec_error refused
        have waited := inserting.wait around between
        exact waited.decided.opened.failed.wait around more
      case replied =>
        intro s1 between conditions reply after replied
        rw [List.append_cons]
        apply induction tail
        exact (inserting.wait around between).inserted head
          (perform_insertMembership (exec_ok replied))

/-- What holds just before the commit. -/
def Reconciled (plan : Plan)
    (frame : Tables → Prop)
    (s : Session) (pending : Pending) : Prop :=
  Inserting plan frame plan.missing s pending

theorem meets_reconcileGroupMemberships {side : Side} {base : Database}
    {names : List String} {user : ℤ}
    (around : Surroundings side rely guar frame)
    (resolving : Resolving side base names frame s) :
    Query.Meets (exec side) rely guar (reconcileGroupMemberships user names)
      (fun _ s' => ∃ ids current pending,
        Reconciled ⟨side, base, names, user, ids, current⟩ frame s' pending)
      (fun _ => Failed side frame) s := by
  apply Query.Meets.bind around.refl
  apply (meets_ensureGroups around (List.Subset.refl names) resolving).mono
  case weakerErr =>
    intro error s1 failed later more
    exact failed.wait around more
  intro ids s1 resolved
  obtain ⟨resolving, named, _⟩ := resolved
  apply Query.Meets.ask_bind
  case keeps =>
    intro s2 between conditions
    exact (resolving.wait around between).keeps around conditions (by simp)
  case refused =>
    intro s2 between conditions error after refused later more
    obtain rfl := exec_error refused
    exact (resolving.wait around between).failed.wait around more
  intro s2 between conditions current after replied
  have named := named.mono (resolving.view_subset around between)
  obtain ⟨pending, deleted, inserted, decided⟩ :=
    (resolving.wait around between).decided user named
  obtain ⟨rfl, rfl⟩ : rowsOf user s2.view.memberships = current ∧
      s2.record (.selected side) = after := by
    have performed := Except.ok.inj (exec_ok replied)
    exact ⟨congrArg Prod.fst performed, congrArg Prod.snd performed⟩
  have started : Deleting ⟨side, base, names, user, ids,
      rowsOf user s2.view.memberships⟩ frame []
      (s2.record (.selected side)) := ⟨pending, decided, deleted, inserted⟩
  apply Query.Meets.bind around.refl
  apply (meets_deleteStale around started).mono
  case weakerErr =>
    intro error s3 failed later more
    exact failed.wait around more
  intro _ s3 deleting
  obtain ⟨pending, decided, deleted, empty⟩ := deleting
  have started : Inserting ⟨side, base, names, user, ids,
      rowsOf user s2.view.memberships⟩ frame [] s3 pending := by
    refine ⟨decided, by rw [deleted, List.append_nil]; rfl, ?_, by simp⟩
    rw [empty]
    exact ⟨by simp, by simp, by simp, by simp, by simp⟩
  apply Query.Meets.bind around.refl
  apply (meets_insertMissing around (List.Subset.refl _)
    ⟨pending, started⟩).mono
  case weakerErr =>
    intro error s4 failed later more
    exact failed.wait around more
  intro _ s4 inserting
  obtain ⟨pending, inserting⟩ := inserting
  apply Query.Meets.pure
  intro later more
  exact ⟨ids, _, pending, inserting.wait around more⟩

/-- Before its `BEGIN`, a call of `side` has done nothing. -/
structure Idle (side : Side) (base : Database)
    (frame : Tables → Prop)
    (s : Session) : Prop where
  closed : s.pending = none
  frame : frame s.db.tables
  users : s.db.users = base.users
  groups : base.groups <+: s.db.groups
  sound : s.Sound
  sequences : base.Ahead s.db
  own : ∀ event ∈ s.log, event.side ≠ side
  initial : ¬ Committed side.other s.log →
    s.db.memberships = base.memberships

theorem start_view (db : Database) : (Session.start db).view = db := by
  simp [Session.start, Session.view, Session.pendingOrEmpty, Pending.empty,
    Database.overlay]

theorem Idle.start {side : Side} {base : Database}
    (sound : GroupsSound base.groups base.nextGroup)
    (framed : frame base.tables) : Idle side base frame (.start base) where
  closed := rfl
  frame := framed
  users := rfl
  groups := List.prefix_rfl
  sound := by
    rw [Session.Sound, start_view]
    exact sound
  sequences := .refl base
  own := by simp [Session.start]
  initial := fun _ => rfl

theorem Idle.wait {side : Side} {base : Database}
    (around : Surroundings side rely guar frame) (between : rely s s')
    (idle : Idle side base frame s) : Idle side base frame s' where
  closed := (around.beside between).pending.trans idle.closed
  frame := around.stable between idle.frame
  users := (around.beside between).users.trans idle.users
  groups := idle.groups.trans (around.beside between).groups
  sound := (around.beside between).sound idle.sound
  sequences := idle.sequences.trans (around.beside between).sequences
  own := by
    intro event member same
    exact idle.own event ((around.beside between).own event member same) same
  initial := by
    intro alone
    rw [(around.beside between).memberships (Or.inr alone)]
    apply idle.initial
    intro committed
    exact alone (committed.mono (around.beside between).log)

theorem Idle.uncommitted {side : Side} {base : Database}
    (idle : Idle side base frame s) : ¬ Committed side s.log := by
  intro committed
  obtain ⟨before, pending, member⟩ := committed
  exact idle.own _ member rfl

theorem Idle.begin {side : Side} {base : Database} {names : List String}
    (idle : Idle side base frame s) :
    Resolving side base names frame { s with pending := some .empty } where
  opened := by
    refine ⟨.empty, ?_, rfl, rfl⟩
    have visible : (⟨s.db, some .empty, s.log⟩ : Session).view = s.view := by
      simp [Session.view, Session.pendingOrEmpty, idle.closed]
    constructor
    case inside => rfl
    case frame => exact idle.frame
    case users => exact idle.users
    case alone => rfl
    case groups => exact idle.groups
    case created => simp [Pending.empty]
    case sound =>
      rw [Session.Sound, visible]
      exact idle.sound
    case sequences => exact idle.sequences
    case uncommitted => exact idle.uncommitted
    case initial => exact idle.initial
  unread := fun read => idle.own _ read rfl

/-- The session after the `COMMIT` of `side`. -/
def Session.committed (side : Side) (s : Session) : Session :=
  ({ s with db := s.view, pending := none } : Session).record
    (.committed side s.db s.pendingOrEmpty)

/-- A call ends in `done` when its commit does, and changes nothing when it
fails. -/
theorem meets_syncGroupMemberships {side : Side} {base : Database}
    {user : ℤ} {groups : List String} {done : Session → Prop}
    (around : Surroundings side rely guar frame)
    (commits : ∀ {s pending ids current},
      Reconciled ⟨side, base, wantedNames groups, user, ids, current⟩ frame s
        pending →
      guar s (s.committed side) ∧ done (s.committed side))
    (lasting : ∀ {s s'}, rely s s' → done s → done s')
    (idle : Idle side base frame s) :
    Query.Meets (exec side) rely guar (syncGroupMemberships user groups)
      (fun _ => done) (fun _ s' => frame s'.db.tables) s := by
  apply Query.Meets.ask_bind
  case keeps =>
    intro s1 between conditions
    have idle := idle.wait around between
    apply around.quiet
    cases fault : conditions.fault with
    | some error =>
        simp only [exec, fault]
        exact ⟨idle.uncommitted, rfl, .refl _, Or.inl rfl⟩
    | none =>
        simp only [exec, fault]
        exact ⟨idle.uncommitted, rfl, .refl _, Or.inl rfl⟩
  case refused =>
    intro s1 between conditions error after refused later more
    obtain rfl := exec_error refused
    exact around.stable more (idle.wait around between).frame
  intro s1 between conditions reply after replied
  have started : { s1 with pending := some Pending.empty } = after :=
    congrArg Prod.snd (Except.ok.inj (exec_ok replied))
  subst started
  apply Query.Meets.bind around.refl
  apply Query.Meets.attempt around.refl
  apply (meets_reconcileGroupMemberships around
    (idle.wait around between).begin).mono
  case weaker =>
    intro counts s2 reconciled later more
    obtain ⟨ids, current, pending, reconciled⟩ := reconciled
    have reconciled := reconciled.wait around more
    apply Query.Meets.request
    case keeps =>
      intro s3 between conditions
      have reconciled := reconciled.wait around between
      cases result : exec side conditions s3 .commit with
      | mk answer after =>
          cases answer with
          | error error =>
              obtain rfl := exec_error result
              exact around.quiet
                ⟨reconciled.decided.opened.uncommitted, rfl, .refl _,
                  Or.inl rfl⟩
          | ok reply =>
              have performed : s3.committed side = after :=
                congrArg Prod.snd (Except.ok.inj (exec_ok result))
              subst performed
              exact (commits reconciled).1
    case replied =>
      intro s3 between conditions reply after replied later more
      have performed : s3.committed side = after :=
        congrArg Prod.snd (Except.ok.inj (exec_ok replied))
      subst performed
      exact lasting more (commits (reconciled.wait around between)).2
    case refused =>
      intro s3 between conditions error after refused later more
      obtain rfl := exec_error refused
      have opened := (reconciled.wait around between).decided.opened
      exact around.stable more opened.frame
  case weakerErr =>
    intro error s2 failed later more
    have failed := failed.wait around more
    apply Query.Meets.ask_bind
    case keeps =>
      intro s3 between conditions
      have failed := failed.wait around between
      obtain ⟨pending, inside⟩ := failed.inside
      exact around.quiet (exec_quiet inside failed.uncommitted conditions
        (by simp))
    case replied =>
      intro s3 between conditions reply after replied
      have closed : { s3 with pending := none } = after :=
        congrArg Prod.snd (Except.ok.inj (exec_ok replied))
      subst closed
      apply Query.Meets.fail
      intro later more
      exact around.stable more (failed.wait around between).frame
    case refused =>
      intro s3 between conditions error after refused later more
      obtain rfl := exec_error refused
      exact around.stable more (failed.wait around between).frame

theorem Reconciled.distinct
    (distinct : (s.db.memberships.map MembershipRow.id).Nodup)
    (below : ∀ row ∈ s.db.memberships, row.id < plan.base.nextMembership)
    (reconciled : Reconciled plan frame s pending) :
    (s.view.memberships.map MembershipRow.id).Nodup := by
  rw [view_memberships reconciled.decided.opened.inside, List.map_append,
    List.nodup_append]
  refine ⟨distinct.sublist (List.filter_sublist.map _), reconciled.rows.ids,
    ?_⟩
  intro id kept other inserted same
  obtain ⟨row, member, rfl⟩ := List.mem_map.mp kept
  obtain ⟨new, created, rfl⟩ := List.mem_map.mp inserted
  have old := below row (List.mem_of_mem_filter member)
  have fresh := (reconciled.rows.fresh new created).1
  omega

theorem Reconciled.mem_deleted {rows : List MembershipRow}
    (distinct : (rows.map MembershipRow.id).Nodup)
    (read : plan.current = rowsOf plan.user rows)
    (reconciled : Reconciled plan frame s pending) {row : MembershipRow}
    (member : row ∈ rows) :
    row.id ∈ pending.deleted ↔
      row.userId = plan.user ∧ row.groupId ∉ plan.ids := by
  rw [reconciled.deleted, List.mem_reverse]
  constructor
  · intro deleted
    obtain ⟨other, stale, same⟩ := List.mem_map.mp deleted
    rw [Plan.mem_stale, read, rowsOf, List.mem_filter] at stale
    obtain ⟨⟨listed, mine⟩, unwanted⟩ := stale
    rw [← List.inj_on_of_nodup_map distinct listed member same]
    exact ⟨by simpa using mine, unwanted⟩
  · intro stale
    obtain ⟨mine, unwanted⟩ := stale
    apply List.mem_map_of_mem
    rw [Plan.mem_stale, read, rowsOf, List.mem_filter]
    exact ⟨⟨member, by simpa using mine⟩, unwanted⟩

section UpToDate

variable (distinct : (s.db.memberships.map MembershipRow.id).Nodup)
  (read : plan.current = rowsOf plan.user s.db.memberships)
  (reconciled : Reconciled plan frame s pending)
include read reconciled

theorem Reconciled.mem_inserted {groupId : ℤ} :
    groupId ∈ pending.inserted.map MembershipRow.groupId ↔
      groupId ∈ plan.missing := by
  constructor
  · intro member
    obtain ⟨row, inserted, rfl⟩ := List.mem_map.mp member
    exact (reconciled.rows.owned row inserted).2
  · intro missing
    rcases reconciled.settled groupId missing with own | other
    · exact own
    · obtain ⟨_, row, member, mine, same, _⟩ := other
      refine ((Plan.mem_missing.mp missing).2 ?_).elim
      rw [read, mem_groupIds]
      exact ⟨row, member, mine, same⟩

include distinct

theorem Reconciled.kept :
    s.db.memberships.filter (fun row => row.id ∉ pending.deleted) =
      s.db.memberships.filter fun row =>
        row.userId = plan.user → row.groupId ∈ plan.ids := by
  apply List.filter_congr
  intro row member
  rw [decide_eq_decide, reconciled.mem_deleted distinct read member, not_and,
    not_not]

/-- The user is then in the wanted groups and no other. -/
theorem Reconciled.mem_groups {groupId : ℤ} :
    groupId ∈ (rowsOf plan.user s.view.memberships).map
      MembershipRow.groupId ↔ groupId ∈ plan.ids := by
  rw [mem_groupIds, view_memberships reconciled.decided.opened.inside]
  constructor
  · intro found
    obtain ⟨row, member, mine, rfl⟩ := found
    rcases List.mem_append.mp member with kept | inserted
    · rw [reconciled.kept distinct read, List.mem_filter,
        decide_eq_true_eq] at kept
      exact kept.2 mine
    · exact (Plan.mem_missing.mp (reconciled.rows.owned row inserted).2).1
  · intro listed
    by_cases present : groupId ∈ plan.current.map MembershipRow.groupId
    · rw [read, mem_groupIds] at present
      obtain ⟨row, member, mine, rfl⟩ := present
      refine ⟨row, ?_, mine, rfl⟩
      apply List.mem_append_left
      rw [reconciled.kept distinct read, List.mem_filter, decide_eq_true_eq]
      exact ⟨member, fun _ => listed⟩
    · have inserted := (reconciled.mem_inserted read).mpr
        (Plan.mem_missing.mpr ⟨listed, present⟩)
      obtain ⟨row, member, rfl⟩ := List.mem_map.mp inserted
      exact ⟨row, List.mem_append_right _ member,
        (reconciled.rows.owned row member).1, rfl⟩

end UpToDate

end MiryadCore.Users
