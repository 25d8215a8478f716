import MiryadCore.Drafts.Alone

/-!
# Activations one after the other

From an empty database, calls that run one at a time keep the rows well formed
and change nothing when they fail.  The version that an activation reports as
the previous one is that of the row, which is that of its draft as long as no
version is active.
-/

namespace MiryadCore.Drafts

open Interactive

variable {lymaille : Lymaille} {db after : Database}

inductive Call (lymaille : Lymaille) where
  | putDraft (subject : String) (toolset : lymaille.Toolset)
  | deleteDraft (subject : String) (kind : DraftKind) (name : String)
  | activate (caller : CallerPrincipal) (name : String)

inductive Answer where
  | put (result : Except ToolsetsError Unit)
  | deleted (result : Except ToolsetsError Bool)
  | activated (result : Except LymailleError ActivationReport)
  deriving DecidableEq

def Answer.failed : Answer → Bool
  | .put (.error _) => true
  | .deleted (.error _) => true
  | .activated (.error _) => true
  | _ => false

def program (lymaille : Lymaille) : Call lymaille →
    Script Statement (fun statement => Except String statement.Reply) Answer
  | .putDraft subject toolset =>
      Script.bind (putDraft lymaille subject toolset) fun result =>
        .done (.put result)
  | .deleteDraft subject kind name =>
      Script.bind (deleteDraft subject kind name) fun result =>
        .done (.deleted result)
  | .activate caller name =>
      Script.bind (activateToolset lymaille caller name) fun result =>
        .done (.activated result)

/-- A call that is over, with what it found and left. -/
structure Done (lymaille : Lymaille) where
  call : Call lymaille
  before : Database
  answer : Answer
  after : Database

/-- Calls one after the other, each under its own conditions. -/
def history : List (Call lymaille × (ℕ → Conditions)) → Database →
    List (Done lymaille)
  | [], _ => []
  | (call, envs) :: calls, db =>
      let ended := (program lymaille call).run exec envs db
      { call, before := db, answer := ended.1, after := ended.2 } ::
        history calls ended.2

structure Row.WellFormed (row : Row) : Prop where
  present : row.active.isSome ∨ row.draft.isSome
  version : (row.active.or row.draft).bind versionOf = some row.version

/-- What a call ought to do. -/
structure Done.Sound (done : Done lymaille) : Prop where
  rows : ∀ key row, done.after.rows.lookup key = some row → row.WellFormed
  actives : (∀ caller name, done.call ≠ .activate caller name) → ∀ key,
    activeAt done.after key = activeAt done.before key
  failed : done.answer.failed = true → done.after.rows = done.before.rows
  activated : ∀ caller name report, done.call = .activate caller name →
    done.answer = .activated (.ok report) →
    Promoted lymaille caller name report done.before done.after
  previous : ∀ caller name report key, done.call = .activate caller name →
    done.answer = .activated (.ok report) →
    activationKey caller name = .ok key →
    report.previousVersion = (activeAt done.before key).bind versionOf

/-- An activation that succeeds found an active version. -/
def Done.Replaces (done : Done lymaille) : Prop :=
  ∀ caller name report key, done.call = .activate caller name →
    done.answer = .activated (.ok report) →
    activationKey caller name = .ok key →
    (activeAt done.before key).isSome = true

/-- A stored version has a version text, which is not empty. -/
def Versioned (value : Value) : Prop :=
  ∃ version, versionOf value = some version ∧ version ≠ ""

/-- What the calls keep. -/
structure Database.Kept (db : Database) : Prop where
  idle : db.writes = []
  wellFormed : ∀ {key row}, db.rows.lookup key = some row → row.WellFormed
  active : ∀ {key row value}, db.rows.lookup key = some row →
    row.active = some value → Versioned value
  draft : ∀ {key row value}, db.rows.lookup key = some row →
    row.draft = some value → Versioned value

theorem versioned_toValue {toolset : lymaille.Toolset} {value : Value}
    (stored : lymaille.toValue toolset = some value) : Versioned value :=
  ⟨_, lymaille.version_toValue stored, lymaille.version_ne_empty toolset⟩

/-- A row that is written keeps the others as they are. -/
theorem Database.Kept.insert (kept : db.Kept) {key : Key} {row : Row}
    (rows : after.rows = db.rows.insert key row) (idle : after.writes = [])
    (wellFormed : row.WellFormed)
    (active : ∀ {value}, row.active = some value → Versioned value)
    (draft : ∀ {value}, row.draft = some value → Versioned value) :
    after.Kept := by
  have cases_of : ∀ {other there}, after.rows.lookup other = some there →
      there = row ∨ db.rows.lookup other = some there := by
    intro other there found
    rw [rows] at found
    by_cases same : other = key
    · subst same
      rw [AList.lookup_insert] at found
      exact .inl (Option.some.inj found).symm
    · rw [AList.lookup_insert_ne same] at found
      exact .inr found
  refine ⟨idle, ?_, ?_, ?_⟩
  · intro other there found
    rcases cases_of found with same | old
    · exact same ▸ wellFormed
    · exact kept.wellFormed old
  · intro other there value found holds
    rcases cases_of found with same | old
    · exact active (same ▸ holds)
    · exact kept.active old holds
  · intro other there value found holds
    rcases cases_of found with same | old
    · exact draft (same ▸ holds)
    · exact kept.draft old holds

theorem activeAt_insert {key other : Key} {row : Row}
    (rows : after.rows = db.rows.insert key row)
    (same : row.active = activeAt db key) :
    activeAt after other = activeAt db other := by
  unfold activeAt
  rw [rows]
  by_cases here : other = key
  · subst here
    rw [AList.lookup_insert]
    exact same
  · rw [AList.lookup_insert_ne here]

theorem Put.kept (kept : db.Kept) {toolset : lymaille.Toolset}
    (put : Put lymaille toolset db after) : after.Kept := by
  obtain ⟨key, value, row, stored, drafted, active, fresh, old, rows, idle⟩ :=
    put
  have versioned := versioned_toValue stored
  have actives : ∀ {value}, row.active = some value → Versioned value := by
    intro value is
    rw [active] at is
    unfold activeAt at is
    obtain ⟨before, found, holds⟩ := Option.bind_eq_some_iff.mp is
    exact kept.active found holds
  refine kept.insert rows idle ?_ actives ?_
  · refine ⟨.inr (by rw [drafted]; rfl), ?_⟩
    cases is : row.active with
    | none =>
        rw [drafted, fresh is]
        exact lymaille.version_toValue stored
    | some value =>
        rw [active] at is
        obtain ⟨before, found, holds⟩ := Option.bind_eq_some_iff.mp is
        have formed := (kept.wellFormed found).version
        rw [holds] at formed
        rw [old before found (by rw [holds]; rfl)]
        exact formed
  · intro value is
    rw [drafted] at is
    cases is
    exact versioned

theorem Put.actives {toolset : lymaille.Toolset}
    (put : Put lymaille toolset db after) (other : Key) :
    activeAt after other = activeAt db other := by
  obtain ⟨key, value, row, _, _, active, _, _, rows, _⟩ := put
  exact activeAt_insert rows active

theorem Discarded.actives (discarded : Discarded db after) (other : Key) :
    activeAt after other = activeAt db other := by
  obtain ⟨key, row, found, written, _⟩ := discarded
  have active : row.active = activeAt db key := by
    simp [activeAt, found]
  rcases written with ⟨_, rows⟩ | ⟨absent, rows⟩
  · exact activeAt_insert rows active
  · unfold activeAt
    rw [rows]
    by_cases here : other = key
    · subst here
      rw [AList.lookup_erase, found]
      exact absent.symm
    · rw [AList.lookup_erase_ne here]

theorem Discarded.kept (kept : db.Kept) (discarded : Discarded db after) :
    after.Kept := by
  obtain ⟨key, row, found, written, idle⟩ := discarded
  rcases written with ⟨present, rows⟩ | ⟨_, rows⟩
  · refine kept.insert rows idle ⟨.inl present, ?_⟩
      (fun is => kept.active found is) ?_
    · have formed := (kept.wellFormed found).version
      obtain ⟨value, is⟩ := Option.isSome_iff_exists.mp present
      rw [is] at formed ⊢
      exact formed
    · intro value is
      cases is
  · have old : ∀ {other there}, after.rows.lookup other = some there →
        db.rows.lookup other = some there := by
      intro other there is
      rw [rows] at is
      by_cases here : other = key
      · subst here
        rw [AList.lookup_erase] at is
        cases is
      · rw [AList.lookup_erase_ne here] at is
        exact is
    exact ⟨idle, fun is => kept.wellFormed (old is),
      fun is holds => kept.active (old is) holds,
      fun is holds => kept.draft (old is) holds⟩

theorem Promoted.kept (kept : db.Kept) {caller : CallerPrincipal}
    {name : String} {report : ActivationReport}
    (promoted : Promoted lymaille caller name report db after) :
    after.Kept := by
  obtain ⟨key, row, draft, _, found, drafted, checked, _, _, rows, idle⟩ :=
    promoted
  refine kept.insert rows idle ⟨.inl rfl, versionOf_of_checkDraft checked⟩ ?_ ?_
  · intro value is
    cases is
    exact kept.draft found drafted
  · intro value is
    cases is

/-- The version of a row is what is reported as the previous one. -/
theorem Promoted.previous (kept : db.Kept) {caller : CallerPrincipal}
    {name : String} {report : ActivationReport} {key : Key}
    (promoted : Promoted lymaille caller name report db after)
    (keyed : activationKey caller name = .ok key) :
    ∃ row, db.rows.lookup key = some row ∧
      report.previousVersion = some row.version ∧
      (report.previousVersion = (activeAt db key).bind versionOf ↔
        (activeAt db key).isSome = true) := by
  obtain ⟨key', row, draft, keyed', found, drafted, _, _, told, _, _⟩ := promoted
  rw [keyed] at keyed'
  cases keyed'
  have formed := (kept.wellFormed found).version
  have active : activeAt db key = row.active := by
    simp [activeAt, found]
  have versioned : row.version ≠ "" := by
    have stored : ∃ value, row.active.or row.draft = some value ∧
        Versioned value := by
      cases is : row.active with
      | some value => exact ⟨value, rfl, kept.active found is⟩
      | none => exact ⟨draft, drafted, kept.draft found drafted⟩
    obtain ⟨value, is, version, versionIs, nonempty⟩ := stored
    rw [is, Option.bind_some, versionIs] at formed
    cases formed
    exact nonempty
  have same : report.previousVersion = some row.version := by
    rw [told, if_neg (by simpa using versioned)]
  refine ⟨row, found, same, ?_⟩
  rw [same, active]
  cases is : row.active with
  | none => simp
  | some value =>
      rw [is] at formed
      simpa using formed.symm

/-- What a call does, whatever the conditions: it fails and changes nothing, or
has the effect of its kind. -/
inductive Outcome (lymaille : Lymaille) (db after : Database) :
    Call lymaille → Answer → Prop
  | failed (call : Call lymaille) (answer : Answer) :
      answer.failed = true → Unchanged db after → Outcome lymaille db after call
        answer
  | put (subject : String) (toolset : lymaille.Toolset) :
      Put lymaille toolset db after →
      Outcome lymaille db after (.putDraft subject toolset) (.put (.ok ()))
  | kept (subject : String) (kind : DraftKind) (name : String) :
      after = db →
      Outcome lymaille db after (.deleteDraft subject kind name)
        (.deleted (.ok false))
  | discarded (subject : String) (kind : DraftKind) (name : String) :
      Discarded db after →
      Outcome lymaille db after (.deleteDraft subject kind name)
        (.deleted (.ok true))
  | activated (caller : CallerPrincipal) (name : String)
      (report : ActivationReport) :
      Promoted lymaille caller name report db after →
      Outcome lymaille db after (.activate caller name)
        (.activated (.ok report))

/-- The end of the code of a call. -/
theorem outcome_of_ends {ε α : Type} {code : Code ε α}
    {answer : Except ε α → Answer} {post : α → Database → Prop}
    {call : Call lymaille} (ends : Ends (Unchanged db) code db post)
    (fails : ∀ error, (answer (.error error)).failed = true)
    (succeeds : ∀ value after, post value after →
      Outcome lymaille db after call (answer (.ok value)))
    (envs : ℕ → Conditions) :
    Outcome lymaille db
      (Script.run exec envs
        (Script.bind code fun result => .done (answer result)) db).2
      call
      (Script.run exec envs
        (Script.bind code fun result => .done (answer result)) db).1 := by
  have final : Script.Meets exec Eq (fun _ _ => True)
      (Script.bind code fun result => .done (answer result))
      (fun value after => Outcome lymaille db after call value) db := by
    apply Script.Meets.bind (fun _ => rfl)
    apply Script.Meets.mono ends
    intro result after holds later same
    subst same
    cases result with
    | ok value => exact succeeds value after holds
    | error error => exact .failed call _ (fails error) holds
  exact Script.Meets.run (fun _ => rfl) envs final

theorem outcome_of_call (idle : db.writes = []) (call : Call lymaille)
    (envs : ℕ → Conditions) :
    Outcome lymaille db ((program lymaille call).run exec envs db).2 call
      ((program lymaille call).run exec envs db).1 := by
  cases call with
  | putDraft subject toolset =>
      apply outcome_of_ends (ends_putDraft idle subject toolset) fun _ => rfl
      intro _ after put
      exact .put subject toolset put
  | deleteDraft subject kind name =>
      apply outcome_of_ends (ends_deleteDraft idle subject kind name) fun _ => rfl
      intro discarded after holds
      cases discarded with
      | true => exact .discarded subject kind name holds
      | false => exact .kept subject kind name holds
  | activate caller name =>
      apply outcome_of_ends (ends_activateToolset idle caller name) fun _ => rfl
      intro report after promoted
      exact .activated caller name report promoted

theorem Outcome.keeps (kept : db.Kept) {call : Call lymaille} {answer : Answer}
    (outcome : Outcome lymaille db after call answer) : after.Kept := by
  cases outcome with
  | failed _ _ _ unchanged =>
      obtain ⟨rows, idle⟩ := unchanged
      refine ⟨idle, ?_, ?_, ?_⟩
      · rw [rows]
        exact kept.wellFormed
      · rw [rows]
        exact kept.active
      · rw [rows]
        exact kept.draft
  | put _ _ put => exact put.kept kept
  | kept _ _ _ same => exact same ▸ kept
  | discarded _ _ _ discarded => exact discarded.kept kept
  | activated _ _ _ promoted => exact promoted.kept kept

/-- A call does what it ought to exactly when it is no activation that
succeeds without an active version. -/
theorem Outcome.sound_iff_from (kept : db.Kept) {call : Call lymaille}
    {answer : Answer} (outcome : Outcome lymaille db after call answer) :
    Done.Sound { call, before := db, answer, after } ↔
      Done.Replaces { call, before := db, answer, after } := by
  have after_kept := outcome.keeps kept
  constructor
  · intro sound caller name report key called answered keyed
    have promoted := sound.activated caller name report called answered
    obtain ⟨row, _, _, right⟩ := promoted.previous kept keyed
    exact right.mp (sound.previous caller name report key called answered keyed)
  · intro replaces
    refine ⟨fun key row found => after_kept.wellFormed found, ?_, ?_, ?_, ?_⟩
    · intro inactive key
      cases outcome with
      | failed _ _ _ unchanged =>
          simp only [activeAt, unchanged.1]
      | put _ _ put => exact put.actives key
      | kept _ _ _ same => exact same ▸ rfl
      | discarded _ _ _ discarded => exact discarded.actives key
      | activated caller name _ _ => exact absurd rfl (inactive caller name)
    · intro failed
      cases outcome with
      | failed _ _ _ unchanged => exact unchanged.1
      | _ => cases failed
    · intro caller name report called answered
      cases outcome with
      | failed _ _ failed _ =>
          dsimp only at answered
          rw [answered] at failed
          cases failed
      | activated _ _ _ promoted =>
          cases called
          cases answered
          exact promoted
      | _ => cases answered
    · intro caller name report key called answered keyed
      cases outcome with
      | failed _ _ failed _ =>
          dsimp only at answered
          rw [answered] at failed
          cases failed
      | activated _ _ _ promoted =>
          cases called
          cases answered
          obtain ⟨row, _, _, right⟩ := promoted.previous kept keyed
          exact right.mpr (replaces caller name report key rfl rfl keyed)
      | _ => cases answered

theorem sound_iff_from (calls : List (Call lymaille × (ℕ → Conditions)))
    (db : Database) (kept : db.Kept) :
    (∀ done ∈ history calls db, done.Sound) ↔
      ∀ done ∈ history calls db, done.Replaces := by
  induction calls generalizing db with
  | nil =>
      constructor
      · intro _ done member
        cases member
      · intro _ done member
        cases member
  | cons entry calls induction =>
      obtain ⟨call, envs⟩ := entry
      have outcome := outcome_of_call kept.idle call envs
      have rest := induction _ (outcome.keeps kept)
      simp only [history, List.forall_mem_cons]
      rw [outcome.sound_iff_from kept, rest]

/-- In every run of calls from an empty database, each call keeps the rows well
formed, has its effect or changes nothing, and reports the version that was
active before, exactly when no activation succeeds on a row without an active
version. -/
theorem sound_iff (lymaille : Lymaille)
    (calls : List (Call lymaille × (ℕ → Conditions))) :
    (∀ done ∈ history calls Database.empty, done.Sound) ↔
      ∀ done ∈ history calls Database.empty, done.Replaces := by
  apply sound_iff_from
  refine ⟨rfl, ?_, ?_, ?_⟩
  · intro key row found
    simp [Database.empty] at found
  · intro key row value found
    simp [Database.empty] at found
  · intro key row value found
    simp [Database.empty] at found

/-- A library whose toolsets have a name and a version. -/
def plain : Lymaille where
  Toolset := String × { version : String // version ≠ "" }
  name toolset := toolset.1
  version toolset := toolset.2
  source _ := ""
  skills _ := []
  toValue toolset := some (.object
    [("name", .string toolset.1), ("version", .string toolset.2)])
  fromValue value :=
    match value with
    | .object [("name", .string name), ("version", .string version)] =>
        if nonempty : version ≠ "" then some (name, ⟨version, nonempty⟩)
        else none
    | _ => none
  extractContract _ := .ok ()
  checkSize _ _ := .ok ()
  checkTemplate _ _ := .ok ()
  display _ := "invalid toolset"
  version_toValue := by
    intro toolset value stored
    cases stored
    rfl
  version_ne_empty toolset := toolset.2.property

/-- The first activation of a toolset reports its own version as the one that
it replaces. -/
theorem previous_of_draft :
    ¬∀ calls : List (Call plain × (ℕ → Conditions)),
      ∀ done ∈ history calls Database.empty, done.Sound := by
  intro all
  have sound := all
    [(.putDraft "alice" ("tools", ⟨"1.0.0", by decide⟩), fun _ => {}),
      (.activate { userId := 1, subject := "alice", isAdmin := false } "tools",
        fun _ => {})]
    _ (List.mem_cons_of_mem _ List.mem_cons_self)
  have previous := sound.previous
    { userId := 1, subject := "alice", isAdmin := false } "tools"
    { name := "tools", version := "1.0.0", previousVersion := some "1.0.0" }
    (.owned 1 "tools") rfl (by decide +kernel) (by decide +kernel)
  exact absurd previous (by decide +kernel)

end MiryadCore.Drafts
