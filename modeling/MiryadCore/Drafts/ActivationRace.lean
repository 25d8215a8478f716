import MiryadCore.Control.Pool
import MiryadCore.Drafts.Activation

/-!
# Activations beside other calls

A call looks whether the row has an active version in one statement and writes
in another, while an activation may commit in between.  The active versions
last as long as each write that follows such a look finds what it saw.
-/

namespace MiryadCore.Drafts

open Interactive

variable {lymaille : Lymaille}

/-- Calls beside each other, a statement at a time. -/
def system (lymaille : Lymaille) : System (Call lymaille) Statement
    (fun statement => Except String statement.Reply) Conditions Database
    Answer where
  program := program lymaille
  exec := exec
  ready := ready
  spawns _ := none

/-- A statement, as it took place. -/
abbrev Passage :=
  Occurrence Statement (fun statement => Except String statement.Reply) Database

abbrev Trace := List Passage

/-- The active version of the row that a commit of the transaction leaves. -/
def committed (db : Database) (tx : ℕ) (key : Key) : Option (Option Value) :=
  (db.writes.find? fun write => write.tx = tx ∧ write.key = key).map
    fun write => write.row.active

/-- The version that the latest activation of the row has committed. -/
def activated (start : Database) (key : Key) : Trace → Option Value
  | [] => activeAt start key
  | ⟨_, before, .commit tx, .ok ()⟩ :: earlier =>
      match committed before tx key with
      | some active => active
      | none => activated start key earlier
  | _ :: earlier => activated start key earlier

/-- The version of a row is that of its active version, if it has one. -/
def Versions (db : Database) : Prop :=
  ∀ key row value, db.rows.lookup key = some row → row.active = some value →
    versionOf value = some row.version

/-- The version that the latest activation of a row has committed is active. -/
def Lasting (start db : Database) (trace : Trace) : Prop :=
  ∀ key value, activated start key trace = some value →
    activeAt db key = some value

/-- A write that follows a look at a row without an active version still finds
none. -/
def Guarded (_earlier : Trace) : Passage → Prop
  | ⟨_, before, .upsertDraft key _ _, .ok _⟩ => activeAt before key = none
  | ⟨_, before, .delete key, .ok _⟩ => activeAt before key = none
  | _ => True

/-- What the calls on drafts and toolsets ask of the rows. -/
def Statement.Asked : Statement → Prop
  | .promote _ _ draft version => versionOf draft = some version
  | .upsertType _ _ _ | .upsertTypeDraft _ _ _ | .insertType _ _
  | .updateType _ _ _ => False
  | _ => True

def protocol (lymaille : Lymaille) : Protocol (Call lymaille) Statement
    (fun statement => Except String statement.Reply) Answer Unit where
  start _ := ()
  allows _ statement := statement.Asked
  next _ _ _ := ()
  ends _ _ _ := True

/-- The code asks for such statements only, whatever it is answered. -/
def Asks (lymaille : Lymaille) {ε α : Type} (code : Code ε α) : Prop :=
  Script.Obeys (protocol lymaille) code () fun _ _ => True

namespace Asks

variable {ε α β : Type}

theorem pure (value : α) : Asks lymaille (Pure.pure value : Code ε α) :=
  trivial

theorem fail (error : ε) : Asks lymaille (Query.fail error : Code ε α) :=
  trivial

theorem ofExcept {result : Except ε α} :
    Asks lymaille (Query.ofExcept result : Code ε α) :=
  trivial

theorem query (statement : Statement) (asked : statement.Asked) :
    Asks lymaille (Drafts.query statement) :=
  ⟨asked, fun _ => trivial⟩

theorem demand (statement : Statement) (asked : statement.Asked) :
    Asks lymaille (Drafts.demand statement) :=
  ⟨asked, fun _ => trivial⟩

theorem bind {code : Code ε α} {next : α → Code ε β}
    (asks : Asks lymaille code)
    (after : ∀ value, Asks lymaille (next value)) :
    Asks lymaille (code >>= next : Code ε β) := by
  apply Query.obeys_bind
  apply Script.Obeys.mono asks
  intro stage result _
  cases result with
  | ok value => exact after value
  | error error => trivial

theorem ofExcept_bind {result : Except ε α} {next : α → Code ε β}
    (after : ∀ value, result = .ok value → Asks lymaille (next value)) :
    Asks lymaille (Query.ofExcept result >>= next : Code ε β) := by
  cases result with
  | ok value => exact after value rfl
  | error error => trivial

theorem attempt {code : Code ε α} (asks : Asks lymaille code) :
    Asks lymaille code.attempt := by
  apply Script.Obeys.bind
  exact Script.Obeys.mono asks fun _ _ _ => trivial

theorem mapError {ε' : Type} {translate : ε → ε'} {code : Code ε α}
    (asks : Asks lymaille code) :
    Asks lymaille (code.mapError translate) := by
  apply Script.Obeys.bind
  exact Script.Obeys.mono asks fun _ _ _ => trivial

theorem answering {code : Code ε α} {answer : Except ε α → Answer}
    (asks : Asks lymaille code) :
    Script.Obeys (protocol lymaille)
      (Script.bind code fun result => .done (answer result)) ()
      fun _ _ => True := by
  apply Script.Obeys.bind
  exact Script.Obeys.mono asks fun _ _ _ => trivial

end Asks

theorem asks_principal (subject : String) :
    Asks lymaille (principal subject) := by
  apply Asks.mapError
  apply Asks.bind (Asks.demand (.account subject) trivial)
  intro account
  cases account with
  | none => exact Asks.fail _
  | some userId =>
      apply Asks.bind (Asks.demand (.admin userId) trivial)
      intro isAdmin
      exact Asks.pure _

theorem asks_putDraft (subject : String) (toolset : lymaille.Toolset) :
    Asks lymaille (putDraft lymaille subject toolset) := by
  apply Asks.bind Asks.ofExcept
  intro _
  apply Asks.bind (asks_principal subject)
  intro caller
  apply Asks.bind Asks.ofExcept
  intro kind
  unfold writeDraft
  cases lymaille.toValue toolset with
  | none => exact Asks.fail _
  | some value =>
  cases toolsetKey kind caller (lymaille.name toolset) with
  | none => exact Asks.fail _
  | some key =>
  apply Asks.bind (Asks.query (.probeActive key) trivial)
  intro active
  split
  next => exact Asks.query (.setDraft key value) trivial
  next => exact Asks.query (.upsertDraft key _ value) trivial

theorem asks_discardDraft (key : Key) :
    Asks lymaille (discardDraft key) := by
  apply Asks.bind (Asks.query (.probeRow key) trivial)
  intro row
  match row with
  | none => exact Asks.pure _
  | some (_, none) => exact Asks.pure _
  | some (some _, some _) =>
      exact Asks.bind (Asks.query (.clearDraft key) trivial) fun _ => Asks.pure _
  | some (none, some _) =>
      exact Asks.bind (Asks.query (.delete key) trivial) fun _ => Asks.pure _

theorem asks_deleteDraft (subject : String) (kind : DraftKind) (name : String) :
    Asks lymaille (deleteDraft subject kind name) := by
  cases kind with
  | toolset =>
      apply Asks.bind (asks_principal subject)
      intro caller
      apply Asks.bind Asks.ofExcept
      intro kind
      cases toolsetKey kind caller name with
      | none => exact Asks.fail _
      | some key => exact asks_discardDraft key
  | contextType =>
      have admin : @Asks lymaille _ _
          (requireAdmin subject "context type draft write") := by
        apply Asks.bind (asks_principal subject)
        intro caller
        split
        next => exact Asks.pure _
        next => exact Asks.fail _
      apply Asks.bind admin
      intro _
      exact asks_discardDraft (.type name)
  | other kind => exact Asks.fail _

theorem asks_orRollback {α : Type} {tx : ℕ} {code : Code LymailleError α}
    (asks : Asks lymaille code) :
    Asks lymaille (orRollback tx code) := by
  apply Asks.bind asks.attempt
  intro result
  cases result with
  | ok value => exact Asks.pure value
  | error error =>
      apply Asks.bind (Asks.demand (.rollback tx) trivial).attempt
      intro _
      exact Asks.fail _

theorem asks_promoteDraft {key : Key} {name version : String} {draft : Value}
    {failAfterActive : Bool} (told : versionOf draft = some version) :
    Asks lymaille (promoteDraft key name draft version failAfterActive) := by
  apply Asks.bind (Asks.demand .begin trivial)
  intro tx
  apply Asks.bind
  · apply asks_orRollback
    apply Asks.bind (Asks.demand (.promote tx key draft version) told)
    intro affected
    split
    next => exact Asks.fail _
    next => exact Asks.pure _
  intro _
  apply Asks.bind
  · apply asks_orRollback
    split
    next => exact Asks.fail _
    next => exact Asks.pure _
  intro _
  apply Asks.bind
  · apply asks_orRollback
    apply Asks.bind (Asks.demand (.clearPromoted tx key) trivial)
    intro affected
    split
    next => exact Asks.fail _
    next => exact Asks.pure _
  intro _
  exact Asks.demand (.commit tx) trivial

theorem asks_activateToolset (caller : CallerPrincipal) (name : String) :
    Asks lymaille (activateToolset lymaille caller name) := by
  apply Asks.bind Asks.ofExcept
  intro key
  apply Asks.bind (Asks.demand (.readRow key) trivial)
  intro row
  match row with
  | none => exact Asks.fail _
  | some (none, _) => exact Asks.fail _
  | some (some draft, version) =>
      apply Asks.ofExcept_bind
      intro versionNew checked
      apply Asks.bind (asks_promoteDraft (versionOf_of_checkDraft checked))
      intro _
      exact Asks.pure _

theorem program_asks (call : Call lymaille) :
    Script.Obeys (protocol lymaille) (program lymaille call) () fun _ _ => True := by
  cases call with
  | putDraft subject toolset => exact Asks.answering (asks_putDraft subject toolset)
  | deleteDraft subject kind name =>
      exact Asks.answering (asks_deleteDraft subject kind name)
  | activate caller name => exact Asks.answering (asks_activateToolset caller name)

theorem exec_cases (conditions : Conditions) (db : Database)
    (statement : Statement) :
    (∃ text, exec conditions db statement = (.error text, db.fail statement)) ∨
    (∃ text, exec conditions db statement = (.error text, db)) ∨
    ∃ reply after, db.perform conditions statement = .ok (reply, after) ∧
      exec conditions db statement = (.ok reply, after) := by
  unfold exec
  cases conditions.fault with
  | some text => exact .inl ⟨text, rfl⟩
  | none =>
      right
      cases performs : db.perform conditions statement with
      | error text => exact .inl ⟨text, rfl⟩
      | ok answered => exact .inr ⟨answered.1, answered.2, rfl, rfl⟩

theorem lookup_modify (db : Database) (key other : Key) (change : Row → Row) :
    (db.modify key change).rows.lookup other =
      if other = key then (db.rows.lookup other).map change
      else db.rows.lookup other := by
  unfold Database.modify
  by_cases same : other = key
  · subst same
    rw [if_pos rfl]
    cases found : db.rows.lookup other with
    | none => exact found
    | some row => exact AList.lookup_insert _
  · rw [if_neg same]
    cases db.rows.lookup key with
    | none => rfl
    | some row => exact AList.lookup_insert_ne same

theorem writes_modify (db : Database) (key : Key) (change : Row → Row) :
    (db.modify key change).writes = db.writes := by
  unfold Database.modify
  split <;> rfl

/-- The rows that a commit leaves are those that the transaction saw. -/
theorem lookup_commit (db : Database) (tx : ℕ) (key : Key) :
    (db.commit tx).rows.lookup key = db.seen tx key := by
  have applied : ∀ writes : List Write,
      ((writes.filter fun write => write.tx = tx).foldr
        (fun write rows => rows.insert write.key write.row) db.rows).lookup key =
      ((writes.find? fun write => write.tx = tx ∧ write.key = key).map
        Write.row).or (db.rows.lookup key) := by
    intro writes
    induction writes with
    | nil => rfl
    | cons write writes induction =>
        rw [List.filter_cons, List.find?_cons]
        by_cases mine : write.tx = tx
        · rw [if_pos (decide_eq_true mine), List.foldr_cons]
          by_cases here : write.key = key
          · subst here
            simp [mine]
          · rw [AList.lookup_insert_ne (Ne.symm here), induction]
            simp [here]
        · rw [if_neg (by simpa using mine), induction]
          simp [mine]
  exact applied db.writes

theorem mem_of_seen {db : Database} {tx : ℕ} {key : Key} {row : Row}
    (found : db.seen tx key = some row) :
    (∃ write ∈ db.writes, write.row = row) ∨ db.rows.lookup key = some row := by
  unfold Database.seen at found
  rcases Option.or_eq_some_iff.mp found with written | ⟨_, stored⟩
  · obtain ⟨write, there, same⟩ := Option.map_eq_some_iff.mp written
    exact .inl ⟨write, List.mem_of_find?_eq_some there, same⟩
  · exact .inr stored

/-- The active version of a row, with its version. -/
def Row.Matches (row : Row) : Prop :=
  ∀ value, row.active = some value → versionOf value = some row.version

/-- What the calls keep while their writes find what they looked at. -/
structure Good (start db : Database) (trace : Trace) : Prop where
  lasting : Lasting start db trace
  rows : ∀ {key row}, db.rows.lookup key = some row → row.Matches
  writes : ∀ {write}, write ∈ db.writes → write.row.Matches

namespace Good

variable {start db after : Database} {trace : Trace} {task : ℕ}
  {statement : Statement} {conditions : Conditions}

theorem of_same (good : Good start db trace) {answer}
    (notCommit : ∀ tx, statement = .commit tx → ∀ reply, answer ≠ .ok reply)
    (actives : ∀ key, activeAt after key = activeAt db key)
    (rows : ∀ {key row}, after.rows.lookup key = some row → row.Matches)
    (writes : ∀ {write}, write ∈ after.writes → write.row.Matches) :
    Good start after (⟨task, db, statement, answer⟩ :: trace) := by
  refine ⟨?_, rows, writes⟩
  intro key value told
  rw [actives]
  apply good.lasting key value
  cases statement with
  | commit tx =>
      cases answer with
      | error error => exact told
      | ok reply => exact absurd rfl (notCommit tx rfl reply)
  | _ => exact told

/-- The change of a row that keeps its active version and its version. -/
theorem modify (good : Good start db trace) {answer} {key : Key}
    {change : Row → Row}
    (notCommit : ∀ tx, statement ≠ .commit tx)
    (active : ∀ row, (change row).active = row.active)
    (version : ∀ row, (change row).version = row.version) :
    Good start (db.modify key change) (⟨task, db, statement, answer⟩ :: trace) := by
  apply good.of_same (fun tx same => absurd same (notCommit tx))
  · intro other
    unfold activeAt
    rw [lookup_modify]
    split
    next =>
      cases db.rows.lookup other with
      | none => rfl
      | some row => exact active row
    next => rfl
  · intro other row found
    rw [lookup_modify] at found
    split at found
    next =>
      obtain ⟨there, here, same⟩ := Option.map_eq_some_iff.mp found
      subst same
      intro value is
      rw [active] at is
      rw [version]
      exact good.rows here value is
    next => exact good.rows found
  · intro write member
    rw [writes_modify] at member
    exact good.writes member

theorem insert (good : Good start db trace) {answer} {key : Key} {row : Row}
    (notCommit : ∀ tx, statement ≠ .commit tx)
    (before : activeAt db key = none) (bare : row.active = none) :
    Good start { db with rows := db.rows.insert key row }
      (⟨task, db, statement, answer⟩ :: trace) := by
  apply good.of_same (fun tx same => absurd same (notCommit tx))
  · intro other
    exact activeAt_insert rfl (bare.trans before.symm)
  · intro other there found
    dsimp only at found
    by_cases same : other = key
    · subst same
      rw [AList.lookup_insert] at found
      cases found
      intro value is
      rw [bare] at is
      cases is
    · rw [AList.lookup_insert_ne same] at found
      exact good.rows found
  · exact good.writes

theorem erase (good : Good start db trace) {answer} {key : Key}
    (notCommit : ∀ tx, statement ≠ .commit tx) (bare : activeAt db key = none) :
    Good start { db with rows := db.rows.erase key }
      (⟨task, db, statement, answer⟩ :: trace) := by
  apply good.of_same (fun tx same => absurd same (notCommit tx))
  · intro other
    by_cases same : other = key
    · subst same
      rw [bare]
      unfold activeAt
      rw [AList.lookup_erase]
      rfl
    · unfold activeAt
      rw [AList.lookup_erase_ne same]
  · intro other row found
    dsimp only at found
    by_cases same : other = key
    · subst same
      rw [AList.lookup_erase] at found
      cases found
    · rw [AList.lookup_erase_ne same] at found
      exact good.rows found
  · exact good.writes

theorem write (good : Good start db trace) {answer} {tx : ℕ} {key : Key}
    {row : Row} (notCommit : ∀ tx, statement ≠ .commit tx)
    (fits : row.Matches) :
    Good start (db.write tx key row) (⟨task, db, statement, answer⟩ :: trace) := by
  apply good.of_same (fun tx same => absurd same (notCommit tx))
  · exact fun _ => rfl
  · exact good.rows
  · intro write member
    rcases List.mem_cons.mp member with latest | earlier
    · rw [latest]
      exact fits
    · exact good.writes earlier

theorem commit (good : Good start db trace) (tx : ℕ) :
    Good start (db.commit tx) (⟨task, db, .commit tx, .ok ()⟩ :: trace) := by
  refine ⟨?_, ?_, ?_⟩
  · intro key value told
    unfold activeAt
    rw [lookup_commit]
    unfold Database.seen
    simp only [activated, committed] at told
    cases found : db.writes.find? fun write =>
        write.tx = tx ∧ write.key = key with
    | none =>
        rw [found] at told
        exact good.lasting key value told
    | some write =>
        rw [found] at told
        exact told
  · intro key row found
    rw [lookup_commit] at found
    rcases mem_of_seen found with ⟨write, member, same⟩ | stored
    · exact same ▸ good.writes member
    · exact good.rows stored
  · intro write member
    exact good.writes (List.mem_of_mem_filter member)

theorem rollback (good : Good start db trace) {answer} (tx : ℕ)
    (notCommit : ∀ tx, statement = .commit tx → ∀ reply, answer ≠ .ok reply) :
    Good start (db.rollback tx) (⟨task, db, statement, answer⟩ :: trace) := by
  apply good.of_same notCommit
  · exact fun _ => rfl
  · exact good.rows
  · intro write member
    exact good.writes (List.mem_of_mem_filter member)

theorem seen (good : Good start db trace) {tx : ℕ} {key : Key} {row : Row}
    (found : db.seen tx key = some row) : row.Matches := by
  rcases mem_of_seen found with ⟨write, member, same⟩ | stored
  · exact same ▸ good.writes member
  · exact good.rows stored

/-- A statement that is performed. -/
theorem perform (good : Good start db trace) (asked : statement.Asked)
    {reply : statement.Reply}
    (performs : db.perform conditions statement = .ok (reply, after))
    (guarded : Guarded trace ⟨task, db, statement, .ok reply⟩) :
    Good start after (⟨task, db, statement, .ok reply⟩ :: trace) := by
  have same : (∀ tx, statement ≠ .commit tx) →
      Good start db (⟨task, db, statement, .ok reply⟩ :: trace) := by
    intro notCommit
    exact good.of_same (fun tx same => absurd same (notCommit tx))
      (fun _ => rfl) good.rows good.writes
  cases statement with
  | setDraft key draft =>
      cases performs
      exact good.modify (by simp) (fun _ => rfl) fun _ => rfl
  | clearDraft key =>
      cases performs
      exact good.modify (by simp) (fun _ => rfl) fun _ => rfl
  | upsertDraft key version draft =>
      have bare : activeAt db key = none := guarded
      rcases Database.upsert_cases performs with ⟨_, rfl⟩ | ⟨row, found, rfl⟩
      · exact good.insert (by simp) bare rfl
      · refine good.insert (by simp) bare ?_
        unfold activeAt at bare
        rw [found] at bare
        exact bare
  | delete key =>
      cases performs
      exact good.erase (by simp) guarded
  | promote tx key draft version =>
      simp only [Database.perform] at performs
      split at performs
      next row found =>
        split at performs
        next =>
          cases performs
          apply good.write (by simp)
          intro value is
          cases is
          exact asked
        next =>
          cases performs
          exact same (by simp)
      next =>
        cases performs
        exact same (by simp)
  | clearPromoted tx key =>
      simp only [Database.perform] at performs
      split at performs
      next row found =>
        split at performs
        next =>
          cases performs
          exact good.write (by simp) fun value is => good.seen found value is
        next =>
          cases performs
          exact same (by simp)
      next =>
        cases performs
        exact same (by simp)
  | commit tx =>
      cases performs
      exact good.commit tx
  | rollback tx =>
      cases performs
      exact good.rollback tx (by simp)
  | begin =>
      cases performs
      exact good.of_same (by simp) (fun _ => rfl) good.rows good.writes
  | upsertType name version active => exact asked.elim
  | upsertTypeDraft name version draft => exact asked.elim
  | insertType name row => exact asked.elim
  | updateType id name row => exact asked.elim
  | _ =>
      cases performs
      exact same (by simp)

theorem exec (good : Good start db trace) (asked : statement.Asked)
    (guarded : Guarded trace
      ⟨task, db, statement, (exec conditions db statement).1⟩) :
    Good start (exec conditions db statement).2
      (⟨task, db, statement, (Drafts.exec conditions db statement).1⟩ ::
        trace) := by
  rcases exec_cases conditions db statement with
    ⟨text, same⟩ | ⟨text, same⟩ | ⟨reply, after, performs, same⟩
  · rw [same]
    cases statement with
    | commit tx => exact good.rollback tx (by simp)
    | rollback tx => exact good.rollback tx (by simp)
    | _ => exact good.of_same (by simp) (fun _ => rfl) good.rows good.writes
  · rw [same]
    exact good.of_same (by simp) (fun _ => rfl) good.rows good.writes
  · rw [same] at guarded ⊢
    exact good.perform asked performs guarded

end Good

theorem race_outline (lymaille : Lymaille) (start : Database) :
    Outline (system lymaille) (protocol lymaille) (fun _ => True)
      (fun _ => (none : Option Unit))
      (fun db trace => Throughout Guarded trace → Good start db trace)
      (fun _ _ _ _ => True) where
  obeys := program_asks
  begins _ _ _ _ _ _ _ := trivial
  bare _ _ := rfl
  keeps turn conditions guarded :=
    (turn.inv guarded.2).exec turn.allowed guarded.1
  reaches _ _ := trivial
  renews _ _ _ has := by cases has
  frames _ _ _ _ _ _ _ := trivial
  spawned _ _ _ _ spawns _ _ := by cases spawns
  passes _ _ _ _ spawns _ := by cases spawns

/-- In every state that a run of calls reaches, whatever their order and that
of their statements, the version that the latest activation of a row has
committed is active and gives the row its version, if each insertion and each
deletion that follows a look at a row without an active version still finds
none. -/
theorem lasting_of_guarded (lymaille : Lymaille) (start : Database)
    (idle : start.writes = []) (versions : Versions start)
    (moves : List (Move (Call lymaille) Conditions))
    (guarded : Throughout Guarded ((system lymaille).run start moves).trace) :
    ∀ earlier, earlier <+: moves →
      Lasting start ((system lymaille).run start earlier).shared
        ((system lymaille).run start earlier).trace ∧
      Versions ((system lymaille).run start earlier).shared := by
  intro earlier begins
  have first : Throughout Guarded [] → Good start start [] := by
    intro _
    refine ⟨fun key value told => told, ?_, ?_⟩
    · intro key row found value is
      exact versions key row value found is
    · intro write member
      rw [idle] at member
      cases member
  obtain ⟨stages, holds⟩ := (race_outline lymaille start).run first earlier
    (by intro move _; cases move <;> trivial)
  have good := holds.inv (System.throughout_of_earlier begins guarded)
  exact ⟨good.lasting, fun key row value found is => good.rows found value is⟩

/-- Calls of alice on her toolset, which has a draft. -/
def racing (moves : List (Move (Call plain) Conditions)) :
    Pool (Call plain) Statement (fun statement => Except String statement.Reply)
      Database Answer :=
  (system plain).run Database.empty
    (.start (.putDraft "alice" ("tools", ⟨"1.0.0", by decide⟩)) ::
      List.replicate 4 (.step 0 {}) ++ moves)

def activateTools : Call plain :=
  .activate { userId := 1, subject := "alice", isAdmin := false } "tools"

theorem lasting_alone : Lasting Database.empty
    (racing (.start activateTools :: List.replicate 5 (.step 1 {}))).shared
    (racing (.start activateTools :: List.replicate 5 (.step 1 {}))).trace := by
  refine (lasting_of_guarded plain Database.empty rfl ?_ _ ?_ _
    (List.prefix_refl _)).1
  · intro key row value found
    simp [Database.empty] at found
  · exact ⟨trivial, trivial, trivial, trivial, trivial, rfl, trivial, trivial,
      trivial, trivial⟩

/-- The stored form of a toolset of that library. -/
def plainValue (name version : String) : Value :=
  .object [("name", .string name), ("version", .string version)]

/-- The activation of the draft, between the look of another call and its
write. -/
def activatedBetween (call : Call plain) : List (Move (Call plain) Conditions) :=
  [.start call, .start activateTools] ++ List.replicate 3 (.step 1 {}) ++
    List.replicate 5 (.step 2 {}) ++ [.step 1 {}]

/-- A deletion removes the version that was activated after it looked, and a
new draft gives the row its own version, which stays when all calls have
returned. -/
theorem active_version_lost :
    (¬∀ moves, Lasting Database.empty (racing moves).shared
      (racing moves).trace) ∧
    ¬∀ moves,
      (∀ task ∈ (racing moves).tasks, ∃ answer, task.2 = .done answer) →
      Versions (racing moves).shared := by
  constructor
  · intro all
    have lasting := all
      (activatedBetween (.deleteDraft "alice" .toolset "tools"))
      (.owned 1 "tools") (plainValue "tools" "1.0.0") (by decide +kernel)
    exact absurd lasting (by decide +kernel)
  · intro all
    have versions := all
      (activatedBetween (.putDraft "alice" ("tools", ⟨"2.0.0", by decide⟩)))
    have told := versions ?_ (.owned 1 "tools")
      { id := 1, version := "2.0.0", allowedAgents := .array []
        active := some (plainValue "tools" "1.0.0")
        draft := some (plainValue "tools" "2.0.0") }
      (plainValue "tools" "1.0.0") (by decide +kernel) rfl
    · exact absurd told (by decide +kernel)
    · intro task member
      have returned : (racing (activatedBetween
          (.putDraft "alice" ("tools", ⟨"2.0.0", by decide⟩)))).tasks.map
          Prod.snd =
          [.done (.put (.ok ())), .done (.put (.ok ())),
            .done (.activated (.ok
              { name := "tools", version := "1.0.0"
                previousVersion := some "1.0.0" }))] := rfl
      have among : task.2 ∈ (racing (activatedBetween
          (.putDraft "alice" ("tools", ⟨"2.0.0", by decide⟩)))).tasks.map
          Prod.snd := List.mem_map.mpr ⟨task, member, rfl⟩
      rw [returned] at among
      simp only [List.mem_cons, List.not_mem_nil, or_false] at among
      rcases among with same | same | same
      · exact ⟨_, same⟩
      · exact ⟨_, same⟩
      · exact ⟨_, same⟩

end MiryadCore.Drafts
