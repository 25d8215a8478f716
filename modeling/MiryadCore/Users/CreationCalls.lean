import MiryadCore.Users.CreationSteps

/-!
# Calls that create the same rows converge

Committed rows stay.  So a call that has found or inserted a row ends with that
row, and one whose `INSERT` was too late finds it, unless the failure has
aborted the transaction of the call.
-/

namespace MiryadCore.Users.Creation

variable {s s' after : Database × Connection} {moment : Moment}
  {request : Statement}

/-- What other calls do. -/
structure Beside (s s' : Database × Connection) : Prop where
  same : s'.2 = s.2
  rows : stored s.1 ⊆ stored s'.1

/-- A unique row that a transaction cannot insert has been committed. -/
def Failure.Foreseen (db : Database) (failure : Failure) : Prop :=
  ∀ request constraint,
    failure = .refused true request (.uniqueViolation constraint) →
      ∃ key ∈ inserts request, ∃ row ∈ stored db, row.key = key

/-- What a statement of the call does. -/
structure Guarantee (s s' : Database × Connection) : Prop where
  rows : stored s.1 ⊆ stored s'.1
  foreseen : ∀ failure ∈ s'.2.failures,
    failure ∈ s.2.failures ∨ failure.Foreseen s.1

theorem Beside.refl (s : Database × Connection) : Beside s s :=
  ⟨rfl, List.Subset.refl _⟩

theorem Beside.trans {first second third : Database × Connection}
    (before : Beside first second) (later : Beside second third) :
    Beside first third :=
  ⟨later.same.trans before.same, List.Subset.trans before.rows later.rows⟩

/-- The transaction itself has no row with the key of the statement. -/
def Free (s : Database × Connection) (request : Statement) : Prop :=
  ∀ key ∈ inserts request, ∀ row ∈ s.2.held, row.key ≠ key

theorem free_of_reads (reads : inserts request = none) : Free s request := by
  intro key member
  rw [reads] at member
  cases member

theorem Free.beside (free : Free s request) (between : Beside s s') :
    Free s' request := by
  rw [Free, between.same]
  exact free

theorem exec_guarantee (moment : Moment) (free : Free s request) :
    Guarantee s (exec moment s request).2 := by
  cases result : exec moment s request with
  | mk answer after =>
      cases answer with
      | ok reply =>
          obtain ⟨_, _, session', done, rfl⟩ := exec_ok result
          exact ⟨(perform_succeeds done).stays, fun _ member => .inl member⟩
      | error error =>
          obtain ⟨failure, fails, rfl⟩ := exec_error result
          refine ⟨List.Subset.refl _, ?_⟩
          intro other member
          rcases List.mem_append.mp member with before | new
          · exact Or.inl before
          · apply Or.inr
            rw [List.mem_singleton.mp new]
            intro tried constraint same
            cases fails with
            | fault => cases same
            | waiting => cases same
            | aborted => cases same
            | refused goes refused =>
                obtain ⟨inside, rfl, rfl⟩ := Failure.refused.inj same
                rcases perform_error true refused with violated | alone
                · obtain ⟨_, _, key, inserted, row, seen, named⟩ := violated
                  refine ⟨key, inserted, row, ?_, named⟩
                  rcases List.mem_append.mp seen with committed | own
                  · exact committed
                  · exact absurd named (free key inserted row own)
                · cases alone

/-- Something other than a row outside of a transaction has hindered the
call. -/
def Troubled (s : Database × Connection) : Prop :=
  ∃ failure ∈ s.2.failures,
    failure.independent = true ∨ failure.rival = true

theorem Troubled.beside (troubled : Troubled s) (between : Beside s s') :
    Troubled s' := by
  rw [Troubled, between.same]
  exact troubled

theorem Troubled.exec (troubled : Troubled s) (moment : Moment)
    (request : Statement) : Troubled (exec moment s request).2 := by
  obtain ⟨failure, member, hinders⟩ := troubled
  refine ⟨failure, ?_, hinders⟩
  cases result : Creation.exec moment s request with
  | mk answer after =>
      cases answer with
      | ok reply =>
          obtain ⟨_, _, session', _, rfl⟩ := exec_ok result
          exact member
      | error error =>
          obtain ⟨failure, _, rfl⟩ := exec_error result
          exact List.mem_append_left _ member

/-- The transaction goes on, and what the call was told is there. -/
structure Intact (s : Database × Connection) : Prop where
  works : s.2.aborted = false
  told : s.2.told ⊆ visible s

theorem Intact.beside (intact : Intact s) (between : Beside s s') :
    Intact s' where
  works := by
    rw [between.same]
    exact intact.works
  told := by
    rw [visible, between.same]
    intro row member
    rcases List.mem_append.mp (intact.told member) with committed | own
    · exact List.mem_append_left _ (between.rows committed)
    · exact List.mem_append_right _ own

/-- A call goes on from one state to a later one. -/
structure Goes (s s' : Database × Connection) : Prop where
  intact : Intact s'
  opened : s'.2.pending.isSome = s.2.pending.isSome
  told : s.2.told ⊆ s'.2.told
  rows : stored s.1 ⊆ stored s'.1

theorem Intact.goes (intact : Intact s) : Goes s s :=
  ⟨intact, rfl, List.Subset.refl _, List.Subset.refl _⟩

theorem Goes.trans {third : Database × Connection} (first : Goes s s')
    (rest : Goes s' third) : Goes s third where
  intact := rest.intact
  opened := rest.opened.trans first.opened
  told := List.Subset.trans first.told rest.told
  rows := List.Subset.trans first.rows rest.rows

theorem Goes.beside (goes : Goes s s') {later : Database × Connection}
    (between : Beside s' later) : Goes s later where
  intact := goes.intact.beside between
  opened := (congrArg (fun own => own.pending.isSome) between.same).trans
    goes.opened
  told := by
    rw [between.same]
    exact goes.told
  rows := List.Subset.trans goes.rows between.rows

/-- A statement that is not about the transaction itself. -/
def ordinary : Statement → Bool
  | .begin => false
  | .commit => false
  | .rollback => false
  | _ => true

theorem Intact.ok {reply : request.Reply} (intact : Intact s)
    (normal : ordinary request = true)
    (replied : exec moment s request = (.ok reply, after)) :
    Goes s after ∧ after.2.told = s.2.told ++ noted request reply := by
  obtain ⟨_, _, session', done, rfl⟩ := exec_ok replied
  have succeeds := perform_succeeds done
  have plain : ¬ (request = .begin ∨ request = .rollback) := by
    rintro (rfl | rfl)
    · cases normal
    · cases normal
  have kept : request ≠ .commit := by
    rintro rfl
    cases normal
  refine ⟨⟨⟨rfl, ?_⟩, succeeds.opened plain kept,
    List.subset_append_left _ _, succeeds.stays⟩, rfl⟩
  intro row member
  rcases List.mem_append.mp member with before | new
  · exact (succeeds.rows plain).symm.subset
      (List.mem_append_left _ (intact.told before))
  · exact noted_visible done new

/-- A statement fails for a reason that is not lost, or its row is there. -/
theorem Intact.error {error : DbErr} (intact : Intact s)
    (failed : exec moment s request = (.error error, after)) :
    Troubled after ∨ s.2.pending = none ∧
      ∃ key ∈ inserts request, ∃ row ∈ stored s.1, row.key = key := by
  obtain ⟨failure, fails, rfl⟩ := exec_error failed
  have noted : failure ∈ (s.2.fail request failure).failures :=
    List.mem_append_right _ (List.mem_singleton_self _)
  cases fails with
  | fault => exact Or.inl ⟨_, noted, Or.inl rfl⟩
  | waiting => exact Or.inl ⟨_, noted, Or.inr rfl⟩
  | aborted aborted =>
      rw [intact.works] at aborted
      cases aborted
  | refused _ refused =>
      rcases perform_error s.2.pending.isSome refused with violated | alone
      · obtain ⟨constraint, rfl, key, inserted, row, seen, named⟩ := violated
        cases inside : s.2.pending with
        | some pending =>
            rw [inside] at noted
            exact Or.inl ⟨_, noted, Or.inr rfl⟩
        | none =>
            refine Or.inr ⟨rfl, key, inserted, row, ?_, named⟩
            rcases List.mem_append.mp seen with committed | own
            · exact committed
            · rw [session, inside] at own
              cases own
      · exact Or.inl ⟨_, noted, Or.inl alone⟩

theorem Intact.troubled {error : DbErr} (intact : Intact s)
    (reads : inserts request = none)
    (failed : exec moment s request = (.error error, after)) :
    Troubled after := by
  rcases intact.error failed with troubled | violated
  · exact troubled
  · obtain ⟨_, key, inserted, _⟩ := violated
    rw [reads] at inserted
    cases inserted

theorem Intact.outside {error : DbErr} (intact : Intact s)
    (plain : s.2.pending = none)
    (failed : exec moment s request = (.error error, after)) :
    Goes s after := by
  obtain ⟨failure, _, rfl⟩ := exec_error failed
  refine ⟨⟨?_, ?_⟩, ?_, List.Subset.refl _, List.Subset.refl _⟩
  · simp [Connection.fail, plain]
  · have nothing : (s.2.fail request failure).held = s.2.held := by
      simp [Connection.held, Connection.fail, plain]
    rw [visible, nothing]
    exact intact.told
  · simp [Connection.fail, plain]

theorem aborted_of_error {error : DbErr} (inside : s.2.pending.isSome = true)
    (normal : ordinary request = true)
    (failed : exec moment s request = (.error error, after)) :
    after.2.aborted = true := by
  obtain ⟨failure, _, rfl⟩ := exec_error failed
  have going : request ≠ .commit ∧ request ≠ .rollback := by
    constructor
    · rintro rfl
      cases normal
    · rintro rfl
      cases normal
  simp [Connection.fail, inside, going]

theorem no_ok_of_aborted {reply : request.Reply}
    (aborted : s.2.aborted = true) (normal : ordinary request = true)
    (replied : exec moment s request = (.ok reply, after)) : False := by
  obtain ⟨_, works | rfl | rfl, _⟩ := exec_ok replied
  · rw [aborted] at works
    cases works
  · cases normal
  · cases normal

/-- The shape of `resolve_user` and `ensure_group`. -/
def getOrCreate {α : Type} (select insert : Statement)
    (found : select.Reply → Option α) (made : insert.Reply → α) : Db α := do
  match found (← statement select) with
  | some existing => return existing
  | none =>
      match ← (statement insert).attempt with
      | .ok model => return made model
      | .error insertErr =>
          match found (← statement select) with
          | some existing => return existing
          | none => Query.fail insertErr

theorem resolveUser_eq (subject : String) (email : Option String) :
    resolveUser subject email =
      getOrCreate (.selectUser subject) (.insertUser subject email) id id := by
  rw [resolveUser, getOrCreate]
  congr 1
  funext found
  cases found with
  | some existing => rfl
  | none =>
      simp only [id]
      congr 1
      funext answer
      cases answer with
      | ok model => rfl
      | error insertErr =>
          simp only []
          congr 1
          funext found
          cases found with
          | some user => rfl
          | none => rfl

theorem ensureGroup_eq (name : String) :
    ensureGroup name =
      getOrCreate (.selectGroup name) (.insertGroup name)
        (Option.map GroupRow.id) GroupRow.id := by
  rw [ensureGroup, getOrCreate]
  congr 1
  funext found
  cases found with
  | some existing => rfl
  | none =>
      simp only [Option.map_none]
      congr 1
      funext answer
      cases answer with
      | ok model => rfl
      | error insertErr =>
          simp only []
          congr 1
          funext found
          cases found with
          | some group => rfl
          | none => rfl

/-- The two statements are about the rows of a key; `means` says which row a
value stands for. -/
structure Concerns {α : Type} (key : Key) (select insert : Statement)
    (found : select.Reply → Option α) (made : insert.Reply → α)
    (means : α → Row → Prop) : Prop where
  looks : ordinary select = true ∧ inserts select = none
  adds : ordinary insert = true ∧ inserts insert = some key
  finds : ∀ {conditions before reply session'},
    Session.perform .left conditions before select = .ok (reply, session') →
      match found reply with
      | some value => ∃ row ∈ noted select reply, row.key = key ∧
          means value row
      | none => ∀ row ∈ stored before.db ++ heldBy before.pending,
          row.key ≠ key
  makes : ∀ reply, ∃ row ∈ noted insert reply, row ∈ added insert reply ∧
    means (made reply) row

/-- The call has a value for the key. -/
structure Has {α : Type} (key : Key) (means : α → Row → Prop)
    (s : Database × Connection) (value : α) (s' : Database × Connection) :
    Prop where
  goes : Goes s s'
  there : ∃ row ∈ s'.2.told, row.key = key ∧ means value row

section

variable {α : Type} {key : Key} {select insert : Statement}
  {found : select.Reply → Option α} {made : insert.Reply → α}
  {means : α → Row → Prop}

theorem Has.beside {value : α} (has : Has key means s value s')
    {later : Database × Connection} (between : Beside s' later) :
    Has key means s value later where
  goes := has.goes.beside between
  there := by
    rw [between.same]
    exact has.there

theorem Concerns.hit (concerns : Concerns key select insert found made means)
    (goes : Goes s s') {reply : select.Reply}
    (replied : exec moment s' select = (.ok reply, after)) {value : α}
    (known : found reply = some value) : Has key means s value after := by
  obtain ⟨further, told⟩ := goes.intact.ok concerns.looks.1 replied
  obtain ⟨_, _, session', done, _⟩ := exec_ok replied
  have finds := concerns.finds done
  rw [known] at finds
  obtain ⟨row, member, named, stands⟩ := finds
  refine ⟨goes.trans further, row, ?_, named, stands⟩
  rw [told]
  exact List.mem_append_right _ member

theorem Concerns.miss (concerns : Concerns key select insert found made means)
    {reply : select.Reply}
    (replied : exec moment s select = (.ok reply, after))
    (unknown : found reply = none) : ∀ row ∈ visible after, row.key ≠ key := by
  obtain ⟨_, _, session', done, rfl⟩ := exec_ok replied
  have succeeds := perform_succeeds done
  have finds := concerns.finds done
  rw [unknown] at finds
  have plain : ¬ (select = .begin ∨ select = .rollback) := by
    have normal := concerns.looks.1
    rintro (rfl | rfl)
    · cases normal
    · cases normal
  intro row member
  rcases List.mem_append.mp ((succeeds.rows plain).subset member) with
    before | new
  · exact finds row before
  · have inserted := (succeeds.fresh row new).1
    rw [concerns.looks.2] at inserted
    cases inserted

theorem Concerns.creates
    (concerns : Concerns key select insert found made means)
    (goes : Goes s s') {reply : insert.Reply}
    (replied : exec moment s' insert = (.ok reply, after)) :
    Has key means s (made reply) after := by
  obtain ⟨further, told⟩ := goes.intact.ok concerns.adds.1 replied
  obtain ⟨_, _, session', done, _⟩ := exec_ok replied
  obtain ⟨row, member, new, stands⟩ := concerns.makes reply
  have named := ((perform_succeeds done).fresh row new).1
  rw [concerns.adds.2] at named
  refine ⟨goes.trans further, row, ?_, (Option.some.inj named).symm, stands⟩
  rw [told]
  exact List.mem_append_right _ member

/-- After a failed `INSERT`, the second lookup finds the row of the call that
was first, unless something else has hindered the call. -/
theorem Concerns.meets_retry
    (concerns : Concerns key select insert found made means)
    (goes : Goes s s') {insertErr : DbErr}
    (failed : exec moment s' insert = (.error insertErr, after))
    {later : Database × Connection} (between : Beside after later) :
    Query.Meets exec Beside Guarantee
      (do
        match found (← statement select) with
        | some existing => return existing
        | none => Query.fail insertErr)
      (Has key means s) (fun _ => Troubled) later := by
  have cause := goes.intact.error failed
  apply Query.Meets.ask_bind
  case keeps =>
    intro s3 more moment
    exact exec_guarantee moment (free_of_reads concerns.looks.2)
  case refused =>
    intro s3 more moment error after' refused final last
    have same : (exec moment s3 select).2 = after' := congrArg Prod.snd refused
    rcases cause with troubled | violated
    · have troubled := (troubled.beside between).beside more
      exact (same ▸ troubled.exec moment select).beside last
    · have second := (goes.trans
        (goes.intact.outside violated.1 failed)).beside between
      exact ((second.beside more).intact.troubled concerns.looks.2
        refused).beside last
  case replied =>
    intro s3 more moment reply after' replied
    have same : (exec moment s3 select).2 = after' := congrArg Prod.snd replied
    cases inside : s'.2.pending with
    | some pending =>
        have aborted := aborted_of_error (congrArg Option.isSome inside)
          concerns.adds.1 failed
        rw [← between.same, ← more.same] at aborted
        exact (no_ok_of_aborted aborted concerns.looks.1 replied).elim
    | none =>
        have second := (goes.trans
          (goes.intact.outside inside failed)).beside (between.trans more)
        cases known : found reply with
        | some value =>
            apply Query.Meets.pure
            intro final last
            exact (concerns.hit second replied known).beside last
        | none =>
            apply Query.Meets.fail
            intro final last
            rcases cause with troubled | violated
            · have troubled := (troubled.beside between).beside more
              exact (same ▸ troubled.exec moment select).beside last
            · obtain ⟨_, other, inserted, row, member, named⟩ := violated
              rw [concerns.adds.2] at inserted
              cases inserted
              have stays := (goes.intact.outside inside failed).rows
              have there : row ∈ stored after'.1 :=
                (second.intact.ok concerns.looks.1 replied).1.rows
                  (more.rows (between.rows (stays member)))
              exact absurd named (concerns.miss replied known row
                (List.mem_append_left _ there))

theorem Concerns.meets_getOrCreate
    (concerns : Concerns key select insert found made means)
    (intact : Intact s) :
    Query.Meets exec Beside Guarantee (getOrCreate select insert found made)
      (Has key means s) (fun _ => Troubled) s := by
  apply Query.Meets.ask_bind
  case keeps =>
    intro s1 between moment
    exact exec_guarantee moment (free_of_reads concerns.looks.2)
  case refused =>
    intro s1 between moment error after failed later more
    exact ((intact.beside between).troubled concerns.looks.2 failed).beside more
  case replied =>
    intro s1 between moment reply after replied
    have first := intact.goes.beside between
    cases known : found reply with
    | some value =>
        apply Query.Meets.pure
        intro later more
        exact (concerns.hit first replied known).beside more
    | none =>
        have second := first.trans
          (first.intact.ok concerns.looks.1 replied).1
        have free : Free after insert := by
          intro other inserted row own
          rw [concerns.adds.2] at inserted
          cases inserted
          exact concerns.miss replied known row
            (List.mem_append_right _ own)
        apply Query.Meets.bind Beside.refl
        apply Query.Meets.attempt Beside.refl
        apply Query.Meets.request
        case keeps =>
          intro s2 between moment
          exact exec_guarantee moment (free.beside between)
        case replied =>
          intro s2 between moment model after replied later more later' more'
          apply Query.Meets.pure
          intro final last
          exact (concerns.creates (second.beside between) replied).beside
            (more.trans (more'.trans last))
        case refused =>
          intro s2 between moment insertErr after failed later more later'
            more'
          exact concerns.meets_retry (second.beside between) failed
            (more.trans more')

end

theorem concerns_subject (subject : String) (email : Option String) :
    Concerns (.subject subject) (.selectUser subject)
      (.insertUser subject email) id id fun user row => row = .user user where
  looks := ⟨rfl, rfl⟩
  adds := ⟨rfl, rfl⟩
  finds := by
    intro conditions before reply session' done
    cases done
    cases found : before.view.users.find? fun user =>
        user.subject = subject with
    | some user =>
        have named : user.subject = subject := by
          simpa using List.find?_some found
        exact ⟨.user user, List.mem_singleton_self _,
          congrArg Key.subject named, rfl⟩
    | none =>
        intro row member same
        rcases List.mem_append.mp ((stored_view before).symm.subset member)
          with users | groups
        · obtain ⟨user, listed, rfl⟩ := List.mem_map.mp users
          have absent := List.find?_eq_none.mp found user listed
          exact absent (decide_eq_true (Key.subject.inj same))
        · obtain ⟨group, _, rfl⟩ := List.mem_map.mp groups
          cases same
  makes := fun user =>
    ⟨.user user, List.mem_singleton_self _, List.mem_singleton_self _, rfl⟩

theorem concerns_name (name : String) :
    Concerns (.name name) (.selectGroup name) (.insertGroup name)
      (Option.map GroupRow.id) GroupRow.id fun id row => row.id = id where
  looks := ⟨rfl, rfl⟩
  adds := ⟨rfl, rfl⟩
  finds := by
    intro conditions before reply session' done
    cases done
    cases found : before.view.groups.find? fun group =>
        group.name = name with
    | some group =>
        have named : group.name = name := by
          simpa using List.find?_some found
        exact ⟨.group group, List.mem_singleton_self _,
          congrArg Key.name named, rfl⟩
    | none =>
        intro row member same
        rcases List.mem_append.mp ((stored_view before).symm.subset member)
          with users | groups
        · obtain ⟨user, _, rfl⟩ := List.mem_map.mp users
          cases same
        · obtain ⟨group, listed, rfl⟩ := List.mem_map.mp groups
          have absent := List.find?_eq_none.mp found group listed
          exact absent (decide_eq_true (Key.name.inj same))
  makes := fun group =>
    ⟨.group group, List.mem_singleton_self _, List.mem_singleton_self _, rfl⟩

abbrev Meets {α : Type} (query : Db α)
    (post : α → Database × Connection → Prop) (s : Database × Connection) :
    Prop :=
  Query.Meets exec Beside Guarantee query post (fun _ => Troubled) s

theorem meets_resolveUser (subject : String) (email : Option String)
    (intact : Intact s) :
    Meets (resolveUser subject email)
      (Has (.subject subject) (fun user row => row = .user user) s) s := by
  rw [resolveUser_eq]
  exact (concerns_subject subject email).meets_getOrCreate intact

theorem meets_ensureGroup (name : String) (intact : Intact s) :
    Meets (ensureGroup name)
      (Has (.name name) (fun id row => row.id = id) s) s := by
  rw [ensureGroup_eq]
  exact (concerns_name name).meets_getOrCreate intact

/-- The call has a row for each name. -/
structure HasAll (names : List String) (s s' : Database × Connection) :
    Prop where
  goes : Goes s s'
  named : ∀ name ∈ names, ∃ row ∈ s'.2.told, row.key = .name name

theorem HasAll.trans {names : List String} {third : Database × Connection}
    (all : HasAll names s s') (goes : Goes s' third) :
    HasAll names s third where
  goes := all.goes.trans goes
  named := by
    intro name member
    obtain ⟨row, told, named⟩ := all.named name member
    exact ⟨row, goes.told told, named⟩

theorem HasAll.beside {names : List String} {later : Database × Connection}
    (all : HasAll names s s') (between : Beside s' later) :
    HasAll names s later where
  goes := all.goes.beside between
  named := by
    rw [between.same]
    exact all.named

theorem meets_bind {α β : Type} {query : Db α} {next : α → Db β}
    {post : α → Database × Connection → Prop}
    {final : β → Database × Connection → Prop}
    (meets : Meets query post s)
    (rest : ∀ value s', post value s' → Meets (next value) final s') :
    Meets (query >>= next) final s := by
  apply Query.Meets.bind Beside.refl
  apply Query.Meets.mono meets
  · exact rest
  · intro error s' troubled later between
    exact troubled.beside between

theorem meets_ensureGroups (names : List String) (intact : Intact s) :
    Meets (ensureGroups names) (fun _ => HasAll names s) s := by
  induction names generalizing s with
  | nil =>
      apply Query.Meets.pure
      intro later between
      exact ⟨intact.goes.beside between, by simp⟩
  | cons name names induction =>
      apply meets_bind (meets_ensureGroup name intact)
      intro id s1 has
      apply meets_bind (induction has.goes.intact)
      intro ids s2 all
      apply Query.Meets.pure
      intro later between
      have all := all.beside between
      refine ⟨has.goes.trans all.goes, ?_⟩
      intro other member
      rcases List.mem_cons.mp member with rfl | member
      · obtain ⟨row, told, named, _⟩ := has.there
        exact ⟨row, all.goes.told told, named⟩
      · exact all.named other member

theorem meets_statement (request : Statement)
    (normal : ordinary request = true) (reads : inserts request = none)
    (intact : Intact s) :
    Meets (statement request) (fun _ => Goes s) s := by
  apply Query.Meets.request
  case keeps =>
    intro s1 between moment
    exact exec_guarantee moment (free_of_reads reads)
  case replied =>
    intro s1 between moment reply after replied later more
    have goes := intact.goes.beside between
    exact (goes.trans (goes.intact.ok normal replied).1).beside more
  case refused =>
    intro s1 between moment error after failed later more
    exact ((intact.beside between).troubled reads failed).beside more

theorem meets_deleteStale (stale : List MembershipRow) (intact : Intact s) :
    Meets (deleteStale stale) (fun _ => Goes s) s := by
  induction stale generalizing s with
  | nil =>
      apply Query.Meets.pure
      intro later between
      exact intact.goes.beside between
  | cons membership stale induction =>
      apply meets_bind (meets_statement _ rfl rfl intact)
      intro _ s1 goes
      apply Query.Meets.mono (induction goes.intact)
      · intro _ s2 rest
        exact goes.trans rest
      · exact fun _ _ troubled => troubled

theorem meets_insertMissing (userId : ℤ) (missing : List ℤ)
    (intact : Intact s) :
    Meets (insertMissing userId missing) (fun _ => Goes s) s := by
  induction missing generalizing s with
  | nil =>
      apply Query.Meets.pure
      intro later between
      exact intact.goes.beside between
  | cons groupId missing induction =>
      apply meets_bind (meets_statement _ rfl rfl intact)
      intro _ s1 goes
      apply Query.Meets.mono (induction goes.intact)
      · intro _ s2 rest
        exact goes.trans rest
      · exact fun _ _ troubled => troubled

theorem meets_reconcileGroupMemberships (userId : ℤ) (names : List String)
    (intact : Intact s) :
    Meets (reconcileGroupMemberships userId names) (fun _ => HasAll names s)
      s := by
  apply meets_bind (meets_ensureGroups names intact)
  intro wantedGroupIds s1 all
  apply meets_bind (meets_statement (.selectMemberships userId) rfl rfl
    all.goes.intact)
  intro current s2 read
  apply meets_bind (meets_deleteStale _ read.intact)
  intro _ s3 deleted
  apply meets_bind (meets_insertMissing userId _ deleted.intact)
  intro _ s4 inserted
  apply Query.Meets.pure
  intro later between
  exact (((all.trans read).trans deleted).trans inserted).beside between

/-- What a call that returns has, and that its rows are committed. -/
structure Concluded (call : Call) (answer : Answer)
    (s : Database × Connection) : Prop where
  told : s.2.told ⊆ stored s.1
  given : ∀ key ∈ call.keys, ∃ id, Gives s.2.told call answer key id
  rows : ∀ key id, Gives s.2.told call answer key id →
    ∃ row ∈ s.2.told, row.key = key ∧ row.id = id

theorem Concluded.beside {call : Call} {answer : Answer}
    (concluded : Concluded call answer s) (between : Beside s s') :
    Concluded call answer s' where
  told := by
    rw [between.same]
    exact List.Subset.trans concluded.told between.rows
  given := by
    rw [between.same]
    exact concluded.given
  rows := by
    rw [between.same]
    exact concluded.rows

theorem Goes.committed {db : Database} (goes : Goes (db, .fresh) s) :
    s.2.told ⊆ stored s.1 := by
  have closed : s.2.pending = none :=
    Option.isNone_iff_eq_none.mp (Option.isSome_eq_false_iff.mp goes.opened)
  intro row member
  rcases List.mem_append.mp (goes.intact.told member) with committed | own
  · exact committed
  · rw [Connection.held, closed] at own
    cases own

theorem intact_fresh (db : Database) : Intact (db, .fresh) :=
  ⟨rfl, List.nil_subset _⟩

theorem HasAll.commit {names : List String} {userId : ℤ}
    {groups : List String} (all : HasAll names s' s)
    (wanted : names = wantedNames groups) {reply : Unit}
    (replied : exec moment s .commit = (.ok reply, after)) :
    Concluded (.syncGroupMemberships userId groups) .synced after := by
  obtain ⟨_, _, session', done, rfl⟩ := exec_ok replied
  cases done
  have same : s.2.told ++ noted .commit () = s.2.told := List.append_nil _
  refine ⟨?_, ?_, fun key id given => given⟩
  · rw [same]
    intro row member
    exact (stored_view (session s)).symm.subset (all.goes.intact.told member)
  · intro key member
    obtain ⟨name, listed, rfl⟩ := List.mem_map.mp member
    obtain ⟨row, told, named⟩ := all.named name (wanted ▸ listed)
    exact ⟨row.id, row, List.mem_append_left _ told, named, rfl⟩

theorem meets_rollback {err : DbErr}
    {post : Unit → Database × Connection → Prop} (troubled : Troubled s) :
    Meets (do statement .rollback; Query.fail err) post s := by
  apply Query.Meets.ask_bind
  case keeps =>
    intro s1 between moment
    exact exec_guarantee moment (free_of_reads rfl)
  case replied =>
    intro s1 between moment reply after replied
    apply Query.Meets.fail
    intro later more
    have still := (troubled.beside between).exec moment .rollback
    rw [replied] at still
    exact still.beside more
  case refused =>
    intro s1 between moment error after failed later more
    have still := (troubled.beside between).exec moment .rollback
    rw [failed] at still
    exact still.beside more

theorem meets_syncGroupMemberships (userId : ℤ) (groups : List String)
    (db : Database) :
    Meets (syncGroupMemberships userId groups)
      (fun _ => Concluded (.syncGroupMemberships userId groups) .synced)
      (db, .fresh) := by
  apply Query.Meets.ask_bind
  case keeps =>
    intro s1 between moment
    exact exec_guarantee moment (free_of_reads rfl)
  case refused =>
    intro s1 between moment error after failed later more
    exact (((intact_fresh db).beside between).troubled rfl failed).beside more
  case replied =>
    intro s1 between moment reply after replied
    have begun : Intact after := by
      obtain ⟨_, _, session', done, rfl⟩ := exec_ok replied
      refine ⟨rfl, ?_⟩
      rw [between.same]
      exact List.nil_subset _
    apply Query.Meets.bind Beside.refl
    apply Query.Meets.attempt Beside.refl
    apply Query.Meets.mono (meets_reconcileGroupMemberships userId
      (wantedNames groups) begun)
    · intro counts s2 all later more
      apply Query.Meets.request
      case keeps =>
        intro s3 between moment
        exact exec_guarantee moment (free_of_reads rfl)
      case replied =>
        intro s3 between moment reply after replied final last
        have all := all.beside (more.trans between)
        exact (all.commit rfl replied).beside last
      case refused =>
        intro s3 between moment error after failed final last
        have all := all.beside (more.trans between)
        exact (all.goes.intact.troubled rfl failed).beside last
    · intro err s2 troubled later more
      exact meets_rollback (troubled.beside more)

theorem meets_program (call : Call) (db : Database) :
    Meets (program call) (Concluded call) (db, .fresh) := by
  cases call with
  | resolveUser subject email =>
      apply meets_bind (meets_resolveUser subject email (intact_fresh db))
      intro user s1 has
      apply Query.Meets.pure
      intro later between
      have has := has.beside between
      refine ⟨has.goes.committed, ?_, ?_⟩
      · intro key member
        exact ⟨user.id, List.mem_singleton.mp member, rfl⟩
      · rintro key id ⟨rfl, rfl⟩
        obtain ⟨row, told, named, rfl⟩ := has.there
        exact ⟨_, told, named, rfl⟩
  | ensureGroup name =>
      apply meets_bind (meets_ensureGroup name (intact_fresh db))
      intro group s1 has
      apply Query.Meets.pure
      intro later between
      have has := has.beside between
      refine ⟨has.goes.committed, ?_, ?_⟩
      · intro key member
        exact ⟨group, List.mem_singleton.mp member, rfl⟩
      · rintro key id ⟨rfl, rfl⟩
        exact has.there
  | syncGroupMemberships userId groups =>
      apply meets_bind (meets_syncGroupMemberships userId groups db)
      intro _ s1 concluded
      apply Query.Meets.pure
      intro later between
      exact concluded.beside between

end MiryadCore.Users.Creation
