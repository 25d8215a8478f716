import MiryadCore.Users.Reconciliation

/-!
# The names of a claim

The first phase of a call: each name is resolved to the id of a group, which
is created when it is missing.  What is known about the open transaction
survives what other connections do between two statements.
-/

namespace MiryadCore.Users

variable {side : Side} {rely guar : Session → Session → Prop}
  {frame : Tables → Prop}
  {base : Database} {names : List String} {s s' : Session} {pending : Pending}

/-- What a failed statement leaves behind. -/
structure Failed (side : Side)
    (frame : Tables → Prop)
    (s : Session) : Prop where
  inside : ∃ pending, s.pending = some pending
  frame : frame s.db.tables
  uncommitted : ¬ Committed side s.log

theorem Failed.wait (around : Surroundings side rely guar frame)
    (between : rely s s') (failed : Failed side frame s) :
    Failed side frame s' where
  inside := by
    obtain ⟨pending, inside⟩ := failed.inside
    exact ⟨pending, (around.beside between).pending.trans inside⟩
  frame := around.stable between failed.frame
  uncommitted := (around.beside between).uncommitted failed.uncommitted

theorem Open.failed (opened : Open side base names frame s pending) :
    Failed side frame s where
  inside := ⟨pending, opened.inside⟩
  frame := opened.frame
  uncommitted := opened.uncommitted

/-- The first phase: names are resolved, and nothing is decided yet. -/
structure Resolving (side : Side) (base : Database) (names : List String)
    (frame : Tables → Prop)
    (s : Session) : Prop where
  opened : ∃ pending, Open side base names frame s pending ∧
    pending.deleted = [] ∧ pending.inserted = []
  unread : .selected side ∉ s.log

theorem Resolving.wait (around : Surroundings side rely guar frame)
    (between : rely s s') (resolving : Resolving side base names frame s) :
    Resolving side base names frame s' where
  opened := by
    obtain ⟨pending, opened, nothing⟩ := resolving.opened
    exact ⟨pending, opened.beside (around.beside between)
      (around.stable between), nothing⟩
  unread := fun read =>
    resolving.unread ((around.beside between).own _ read rfl)

theorem Resolving.failed (resolving : Resolving side base names frame s) :
    Failed side frame s := by
  obtain ⟨_, opened, _⟩ := resolving.opened
  exact opened.failed

theorem Resolving.keeps (around : Surroundings side rely guar frame)
    (resolving : Resolving side base names frame s) (conditions : Conditions)
    {request : Statement} (notCommit : request ≠ .commit) :
    guar s (exec side conditions s request).2 := by
  obtain ⟨_, opened, _⟩ := resolving.opened
  exact around.quiet (exec_quiet opened.inside opened.uncommitted conditions
    notCommit)

theorem Resolving.view_subset (around : Surroundings side rely guar frame)
    (between : rely s s') (resolving : Resolving side base names frame s) :
    s.view.groups ⊆ s'.view.groups := by
  obtain ⟨_, opened, _⟩ := resolving.opened
  exact (around.beside between).view_groups_subset opened.inside

/-- A visible group with the given name and id. -/
def Names (s : Session) (name : String) (id : ℤ) : Prop :=
  ∃ group ∈ s.view.groups, group.name = name ∧ group.id = id

theorem Names.mono {name : String} {id : ℤ}
    (grows : s.view.groups ⊆ s'.view.groups) (named : Names s name id) :
    Names s' name id := by
  obtain ⟨group, member, same⟩ := named
  exact ⟨group, grows member, same⟩

private theorem names_of_find {name : String} {group : GroupRow}
    (found : (s.view.groups.find? fun group => group.name = name) =
      some group) : Names s name group.id := by
  have same := List.find?_some found
  simp only [decide_eq_true_eq] at same
  exact ⟨group, List.mem_of_find?_eq_some found, same, rfl⟩

/-- A created group keeps the phase. -/
theorem Resolving.inserted {name : String} {group : GroupRow}
    {conditions : Conditions} (wanted : name ∈ names)
    (resolving : Resolving side base names frame s)
    (inserted : s.insertGroup conditions name = .ok (group, s')) :
    Resolving side base names frame s' ∧ Names s' name group.id ∧
      s.view.groups ⊆ s'.view.groups := by
  obtain ⟨pending, opened, deleted, empty⟩ := resolving.opened
  obtain ⟨rfl, absent, fresh, rfl⟩ := insertGroup_ok opened.inside inserted
  have grown : ∀ log : List Event, (⟨{ s.db with nextGroup := group.id + 1 },
      some { pending with groups := pending.groups ++ [group] }, log⟩ :
        Session).view.groups = s.view.groups ++ [group] := by
    intro log
    rw [view_groups rfl, view_groups opened.inside, List.append_assoc]
  refine ⟨⟨⟨{ pending with groups := pending.groups ++ [group] }, ?_, deleted,
    empty⟩, resolving.unread⟩, ?_, ?_⟩
  · constructor
    case inside => rfl
    case frame => exact opened.frame
    case users => exact opened.users
    case alone => exact opened.alone
    case groups => exact opened.groups
    case created =>
      intro created member
      rcases List.mem_append.mp member with old | new
      · exact opened.created created old
      · rw [List.mem_singleton] at new
        subst new
        refine ⟨wanted, ?_⟩
        intro known
        apply absent
        rw [view_groups opened.inside, List.map_append]
        apply List.mem_append_left
        obtain ⟨other, member, same⟩ := List.mem_map.mp known
        exact List.mem_map.mpr ⟨other, opened.groups.subset member, same⟩
    case sound =>
      rw [Session.Sound, grown]
      exact opened.sound.append absent fresh
    case sequences =>
      have ahead := fresh.trans (Int.lt_succ _).le
      exact opened.sequences.trans ⟨le_rfl, ahead, le_rfl⟩
    case uncommitted => exact opened.uncommitted
    case initial => exact opened.initial
  · refine ⟨group, ?_, rfl, rfl⟩
    rw [grown]
    simp
  · rw [grown]
    exact List.subset_append_left _ _

/-- What a resolved name leaves: the phase, the group, and the groups that
were visible in `s`. -/
structure Resolved (side : Side) (base : Database) (names : List String)
    (frame : Tables → Prop)
    (s : Session) (name : String) (id : ℤ) (s' : Session) : Prop where
  resolving : Resolving side base names frame s'
  named : Names s' name id
  grows : s.view.groups ⊆ s'.view.groups

theorem Resolved.wait (around : Surroundings side rely guar frame)
    {name : String} {id : ℤ} {later : Session} (between : rely s' later)
    (resolved : Resolved side base names frame s name id s') :
    Resolved side base names frame s name id later where
  resolving := resolved.resolving.wait around between
  named := resolved.named.mono
    (resolved.resolving.view_subset around between)
  grows := List.Subset.trans resolved.grows
    (resolved.resolving.view_subset around between)

theorem meets_ensureGroup (around : Surroundings side rely guar frame)
    {name : String} (wanted : name ∈ names)
    (resolving : Resolving side base names frame s) :
    Query.Meets (exec side) rely guar (ensureGroup name)
      (Resolved side base names frame s name)
      (fun _ => Failed side frame) s := by
  apply Query.Meets.ask_bind
  case keeps =>
    intro s1 between conditions
    exact (resolving.wait around between).keeps around conditions (by simp)
  case refused =>
    intro s1 between conditions error after refused later more
    obtain rfl := exec_error refused
    exact (resolving.wait around between).failed.wait around more
  case replied =>
    intro s1 between conditions found after replied
    have first := resolving.wait around between
    have subset := resolving.view_subset around between
    have performed := exec_ok replied
    cases found with
    | some existing =>
        have same : s1 = after := congrArg Prod.snd (Except.ok.inj performed)
        have found := congrArg Prod.fst (Except.ok.inj performed)
        subst same
        apply Query.Meets.pure
        intro later more
        exact Resolved.wait around more ⟨first, names_of_find found, subset⟩
    | none =>
        have same : s1 = after := congrArg Prod.snd (Except.ok.inj performed)
        subst same
        apply Query.Meets.bind around.refl
        apply Query.Meets.attempt around.refl
        apply Query.Meets.request
        case keeps =>
          intro s2 between conditions
          exact (first.wait around between).keeps around conditions (by simp)
        case replied =>
          intro s2 between conditions group after replied later more
            later' more'
          have subset := List.Subset.trans subset
            (first.view_subset around between)
          obtain ⟨second, named, grows⟩ := (first.wait around between).inserted
            wanted (exec_ok replied)
          apply Query.Meets.pure
          intro final last
          exact Resolved.wait around (around.trans more
            (around.trans more' last)) ⟨second, named, List.Subset.trans subset grows⟩
        case refused =>
          intro s2 between conditions error after refused later more later'
            more'
          obtain rfl := exec_error refused
          have after := around.trans between (around.trans more more')
          have second := first.wait around after
          have subset := List.Subset.trans subset
            (first.view_subset around after)
          apply Query.Meets.ask_bind
          case keeps =>
            intro s3 between conditions
            exact (second.wait around between).keeps around conditions
              (by simp)
          case refused =>
            intro s3 between conditions error after refused later more
            obtain rfl := exec_error refused
            exact (second.wait around between).failed.wait around more
          case replied =>
            intro s3 between conditions found after replied
            have third := second.wait around between
            have subset := List.Subset.trans subset
              (second.view_subset around between)
            have performed := exec_ok replied
            have same : s3 = after :=
              congrArg Prod.snd (Except.ok.inj performed)
            have answer := congrArg Prod.fst (Except.ok.inj performed)
            subst same
            cases found with
            | some group =>
                apply Query.Meets.pure
                intro final last
                exact Resolved.wait around last
                  ⟨third, names_of_find answer, subset⟩
            | none =>
                apply Query.Meets.fail
                intro final last
                exact third.failed.wait around last

/-- Names and ids stand for the same visible groups. -/
structure Named (s : Session) (names : List String) (ids : List ℤ) : Prop where
  found : ∀ name ∈ names, ∃ id ∈ ids, Names s name id
  cited : ∀ id ∈ ids, ∃ name ∈ names, Names s name id

theorem Named.mono {ids : List ℤ} (grows : s.view.groups ⊆ s'.view.groups)
    (named : Named s names ids) : Named s' names ids where
  found := by
    intro name member
    obtain ⟨id, listed, group⟩ := named.found name member
    exact ⟨id, listed, group.mono grows⟩
  cited := by
    intro id listed
    obtain ⟨name, member, group⟩ := named.cited id listed
    exact ⟨name, member, group.mono grows⟩

theorem Named.cons {ids : List ℤ} {name : String} {id : ℤ}
    (head : Names s name id) (tail : Named s names ids) :
    Named s (name :: names) (id :: ids) where
  found := by
    intro other member
    rcases List.mem_cons.mp member with rfl | later
    · exact ⟨id, List.mem_cons_self, head⟩
    · obtain ⟨found, listed, group⟩ := tail.found other later
      exact ⟨found, List.mem_cons_of_mem _ listed, group⟩
  cited := by
    intro other listed
    rcases List.mem_cons.mp listed with rfl | later
    · exact ⟨name, List.mem_cons_self, head⟩
    · obtain ⟨found, member, group⟩ := tail.cited other later
      exact ⟨found, List.mem_cons_of_mem _ member, group⟩

theorem Named.mem_ids {ids : List ℤ} {groups : List GroupRow}
    (distinct : (groups.map GroupRow.name).Nodup)
    (grows : s.view.groups ⊆ groups) (named : Named s names ids) (id : ℤ) :
    id ∈ ids ↔ ∃ group ∈ groups, group.name ∈ names ∧ group.id = id := by
  constructor
  · intro listed
    obtain ⟨name, wanted, group, visible, rfl, same⟩ := named.cited id listed
    exact ⟨group, grows visible, wanted, same⟩
  · intro visible
    obtain ⟨group, member, wanted, rfl⟩ := visible
    obtain ⟨id, listed, other, found, same, rfl⟩ :=
      named.found group.name wanted
    rw [← List.inj_on_of_nodup_map distinct (grows found) member same]
    exact listed

theorem meets_ensureGroups (around : Surroundings side rely guar frame)
    {wanted : List String} (included : wanted ⊆ names)
    (resolving : Resolving side base names frame s) :
    Query.Meets (exec side) rely guar (ensureGroups wanted)
      (fun ids s' => Resolving side base names frame s' ∧
        Named s' wanted ids ∧ s.view.groups ⊆ s'.view.groups)
      (fun _ => Failed side frame) s := by
  induction wanted generalizing s with
  | nil =>
      apply Query.Meets.pure
      intro later more
      exact ⟨resolving.wait around more, ⟨by simp, by simp⟩,
        resolving.view_subset around more⟩
  | cons name wanted induction =>
      obtain ⟨head, tail⟩ := List.cons_subset.mp included
      apply Query.Meets.bind around.refl
      apply (meets_ensureGroup around head resolving).mono
      case weakerErr =>
        intro error s1 failed later more
        exact failed.wait around more
      intro id s1 resolved
      apply Query.Meets.bind around.refl
      apply (induction tail resolved.resolving).mono
      case weakerErr =>
        intro error s2 failed later more
        exact failed.wait around more
      intro ids s2 rest
      obtain ⟨second, named, grows⟩ := rest
      apply Query.Meets.pure
      intro later more
      have grows := List.Subset.trans grows (second.view_subset around more)
      exact ⟨second.wait around more,
        (named.mono (second.view_subset around more)).cons
          (resolved.named.mono grows),
        List.Subset.trans resolved.grows grows⟩

end MiryadCore.Users
