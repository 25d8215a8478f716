import MiryadCore.Drafts.Operations

/-!
# Calls on drafts that run alone

What each call on the drafts and the toolsets leaves when nothing runs beside
it: it has its effect, or ends with an error and changes nothing.
-/

namespace MiryadCore.Drafts

open Interactive

theorem ok_of_bind {ε α β : Type} {first : Except ε α} {next : α → Except ε β}
    {value : β} (succeeded : (first >>= next) = .ok value) :
    ∃ middle, first = .ok middle ∧ next middle = .ok value := by
  cases first with
  | error error => cases succeeded
  | ok middle => exact ⟨middle, rfl, succeeded⟩

/-- The rows are the same, and no transaction is open. -/
def Unchanged (db after : Database) : Prop :=
  after.rows = db.rows ∧ after.writes = []

/-- Only the transaction has written. -/
def InTransaction (db : Database) (tx : ℕ) (after : Database) : Prop :=
  after.rows = db.rows ∧ ∀ write ∈ after.writes, write.tx = tx

section Transaction

variable {db start : Database} {tx : ℕ}

theorem InTransaction.write (inside : InTransaction db tx start) (key : Key)
    (row : Row) : InTransaction db tx (start.write tx key row) := by
  refine ⟨inside.1, ?_⟩
  intro write member
  rcases List.mem_cons.mp member with latest | earlier
  · rw [latest]
  · exact inside.2 write earlier

theorem InTransaction.rollback (inside : InTransaction db tx start) :
    Unchanged db (start.rollback tx) := by
  refine ⟨inside.1, List.filter_eq_nil_iff.mpr ?_⟩
  intro write member
  simp [inside.2 write member]

end Transaction

/-- Alone, the code ends with `post`, or with an error and `err`. -/
def Ends {ε α : Type} (err : Database → Prop) (code : Code ε α)
    (start : Database) (post : α → Database → Prop) : Prop :=
  Query.Meets exec Eq (fun _ _ => True) code post (fun _ after => err after)
    start

namespace Ends

variable {ε α β : Type} {db start : Database} {err : Database → Prop}
  {code : Code ε α}

theorem pure {value : α} {post : α → Database → Prop}
    (holds : post value start) :
    Ends err (Pure.pure value : Code ε α) start post := by
  apply Query.Meets.pure
  intro after same
  exact same ▸ holds

theorem fail {error : ε} {post : α → Database → Prop} (holds : err start) :
    Ends err (Query.fail error : Code ε α) start post := by
  apply Query.Meets.fail
  intro after same
  exact same ▸ holds

theorem ofExcept {result : Except ε α} {post : α → Database → Prop}
    (failed : err start)
    (succeeded : ∀ value, result = .ok value → post value start) :
    Ends err (Query.ofExcept result : Code ε α) start post := by
  cases result with
  | error error => exact Ends.fail failed
  | ok value => exact Ends.pure (succeeded value rfl)

theorem bind {next : α → Code ε β} {post : β → Database → Prop}
    (ends : Ends err code start fun value after =>
      Ends err (next value) after post) :
    Ends err (code >>= next : Code ε β) start post := by
  apply Query.Meets.bind (fun _ => rfl)
  apply Query.Meets.mono ends
  · intro value after holds
    exact holds
  · intro error after holds later same
    exact same ▸ holds

theorem mono {post weaker : α → Database → Prop}
    (ends : Ends err code start post)
    (weakens : ∀ value after, post value after → weaker value after) :
    Ends err code start weaker :=
  Query.Meets.mono ends weakens fun _ _ holds => holds

theorem mapError {ε' : Type} {translate : ε → ε'}
    {post : α → Database → Prop} (ends : Ends err code start post) :
    Ends err (code.mapError translate) start post := by
  apply Script.Meets.bind (fun _ => rfl)
  apply Script.Meets.mono ends
  intro result after holds later same
  subst same
  cases result with
  | ok value => exact holds
  | error error => exact holds

/-- A statement fails, is refused, or is performed. -/
theorem statement {translate : String → ε} {statement : Statement}
    {post : statement.Reply → Database → Prop}
    (failed : err (start.fail statement))
    (refused : ∀ conditions text,
      start.perform conditions statement = .error text → err start)
    (performed : ∀ conditions reply after,
      start.perform conditions statement = .ok (reply, after) →
      post reply after) :
    Ends err (Query.askWith translate statement : Code ε statement.Reply) start
      post := by
  intro s same conditions
  subst same
  refine ⟨trivial, ?_⟩
  unfold exec
  cases conditions.fault with
  | some text =>
      intro later same
      exact same ▸ failed
  | none =>
      cases result : start.perform conditions statement with
      | error text =>
          intro later same
          exact same ▸ refused conditions text result
      | ok answered =>
          obtain ⟨reply, after⟩ := answered
          intro later same
          exact same ▸ performed conditions reply after result

theorem askWith {translate : String → ε} {statement : Statement}
    {post : statement.Reply → Database → Prop}
    (failed : err (start.fail statement)) (kept : err start)
    (performed : ∀ conditions reply after,
      start.perform conditions statement = .ok (reply, after) →
      post reply after) :
    Ends err (Query.askWith translate statement : Code ε statement.Reply) start
      post :=
  Ends.statement failed (fun _ _ _ => kept) performed

theorem reads {translate : String → ε} {statement : Statement}
    {post : statement.Reply → Database → Prop}
    (kept : err start) (same : start.fail statement = start)
    (performed : ∀ conditions, ∃ reply,
      start.perform conditions statement = .ok (reply, start) ∧
        post reply start) :
    Ends err (Query.askWith translate statement : Code ε statement.Reply) start
      post := by
  apply Ends.askWith (by rw [same]; exact kept) kept
  intro conditions reply after performs
  obtain ⟨reply', performs', holds⟩ := performed conditions
  rw [performs'] at performs
  cases performs
  exact holds

theorem principal {subject : String}
    {post : CallerPrincipal → Database → Prop} (kept : err start)
    (holds : ∀ caller, post caller start) :
    Ends err (Drafts.principal subject) start post := by
  apply Ends.mapError
  apply Ends.bind
  apply Ends.reads kept rfl
  intro conditions
  refine ⟨_, rfl, ?_⟩
  cases conditions.account with
  | none => exact Ends.fail kept
  | some userId =>
      apply Ends.bind
      apply Ends.reads kept rfl
      intro conditions
      exact ⟨_, rfl, Ends.pure (holds _)⟩

/-- The error of a step of a transaction rolls it back. -/
theorem orRollback {code : Code LymailleError α} {tx : ℕ}
    {post : α → Database → Prop}
    (ends : Ends (InTransaction db tx) code start post) :
    Ends (Unchanged db) (Drafts.orRollback tx code) start post := by
  apply Script.Meets.bind (fun _ => rfl)
  apply Script.Meets.bind (fun _ => rfl)
  apply Script.Meets.mono ends
  intro result s holds s' same
  subst same
  cases result with
  | ok value =>
      intro later same
      exact same ▸ holds
  | error error =>
      intro s' same conditions
      subst same
      refine ⟨trivial, ?_⟩
      unfold exec
      cases conditions.fault with
      | some text =>
          intro later same
          exact same ▸ InTransaction.rollback holds
      | none =>
          intro later same
          exact same ▸ InTransaction.rollback holds

end Ends

def activeAt (db : Database) (key : Key) : Option Value :=
  (db.rows.lookup key).bind Row.active

variable {lymaille : Lymaille} {db after : Database}

/-- A draft is written: the version follows it while none is active. -/
def Put (lymaille : Lymaille) (toolset : lymaille.Toolset)
    (db after : Database) : Prop :=
  ∃ key value row,
    lymaille.toValue toolset = some value ∧ row.draft = some value ∧
    row.active = activeAt db key ∧
    (row.active = none → row.version = lymaille.version toolset) ∧
    (∀ before, db.rows.lookup key = some before → before.active.isSome →
      row.version = before.version) ∧
    after.rows = db.rows.insert key row ∧ after.writes = []

/-- A draft is thrown away, with its row when no version is active. -/
def Discarded (db after : Database) : Prop :=
  ∃ key row,
    db.rows.lookup key = some row ∧
    ((row.active.isSome ∧
        after.rows = db.rows.insert key { row with draft := none }) ∨
      (row.active = none ∧ after.rows = db.rows.erase key)) ∧
    after.writes = []

/-- The draft of the row becomes its active version. -/
def Promoted (lymaille : Lymaille) (caller : CallerPrincipal) (name : String)
    (report : ActivationReport) (db after : Database) : Prop :=
  ∃ key row draft,
    activationKey caller name = .ok key ∧ db.rows.lookup key = some row ∧
    row.draft = some draft ∧
    checkDraft lymaille caller name draft adminOnlyModules =
      .ok report.version ∧
    report.name = name ∧
    report.previousVersion =
      (if row.version.isEmpty then none else some row.version) ∧
    after.rows = db.rows.insert key
      { row with active := some draft, version := report.version, draft := none } ∧
    after.writes = []

theorem unchanged_self (idle : db.writes = []) : Unchanged db db :=
  ⟨rfl, idle⟩

theorem ends_writeDraft (idle : db.writes = []) (toolset : lymaille.Toolset)
    (kind : IdKind) (caller : CallerPrincipal) :
    Ends (Unchanged db) (writeDraft lymaille toolset kind caller) db
      fun _ after => Put lymaille toolset db after := by
  have kept := unchanged_self idle
  unfold writeDraft
  cases serialized : lymaille.toValue toolset with
  | none => exact Ends.fail kept
  | some value =>
  cases toolsetKey kind caller (lymaille.name toolset) with
  | none => exact Ends.fail kept
  | some key =>
  apply Ends.bind
  apply Ends.reads kept rfl
  intro conditions
  refine ⟨activeAt db key, rfl, ?_⟩
  by_cases active : (activeAt db key).isSome = true
  · rw [if_pos active]
    apply Ends.askWith kept kept
    intro conditions reply after performs
    cases performs
    unfold activeAt at active
    cases found : db.rows.lookup key with
    | none =>
        rw [found] at active
        cases active
    | some row =>
        rw [found] at active
        refine ⟨key, value, { row with draft := some value }, serialized, rfl, ?_,
          ?_, ?_, ?_, ?_⟩
        · simp [activeAt, found]
        · intro absent
          have present : row.active.isSome = true := active
          rw [show row.active = none from absent] at present
          cases present
        · intro before same _
          rw [found] at same
          cases same
          rfl
        · simp [Database.modify, found]
        · simpa [Database.modify, found] using idle
  · rw [if_neg active]
    apply Ends.askWith kept kept
    intro conditions reply after performs
    rw [Option.not_isSome_iff_eq_none] at active
    have bare : ∀ before, db.rows.lookup key = some before →
        before.active = none := by
      intro before found
      unfold activeAt at active
      rw [found] at active
      exact active
    have hidden : ∀ before, db.rows.lookup key = some before →
        before.active.isSome = true → False := by
      intro before found isSome
      rw [bare before found] at isSome
      cases isSome
    rcases Database.upsert_cases performs with ⟨_, rfl⟩ | ⟨row, found, rfl⟩
    · exact ⟨key, value, _, serialized, rfl, active.symm, fun _ => rfl,
        fun before same isSome => (hidden before same isSome).elim, rfl, idle⟩
    · refine ⟨key, value, _, serialized, rfl, ?_, fun _ => rfl,
        fun before same isSome => (hidden before same isSome).elim, rfl, idle⟩
      rw [active]
      exact bare row found

theorem ends_putDraft (idle : db.writes = []) (subject : String)
    (toolset : lymaille.Toolset) :
    Ends (Unchanged db) (putDraft lymaille subject toolset) db
      fun _ after => Put lymaille toolset db after := by
  have kept := unchanged_self idle
  apply Ends.bind
  apply Ends.ofExcept kept
  intro _ _
  apply Ends.bind
  apply Ends.principal kept
  intro caller
  apply Ends.bind
  apply Ends.ofExcept kept
  intro kind _
  exact ends_writeDraft idle toolset kind caller

theorem ends_discardDraft (idle : db.writes = []) (key : Key) :
    Ends (Unchanged db) (discardDraft key) db fun discarded after =>
      if discarded then Discarded db after else after = db := by
  have kept := unchanged_self idle
  apply Ends.bind
  apply Ends.reads kept rfl
  intro conditions
  refine ⟨_, rfl, ?_⟩
  cases found : db.rows.lookup key with
  | none => exact Ends.pure rfl
  | some row =>
  obtain ⟨id, version, allowedAgents, active, draft⟩ := row
  cases draft with
  | none =>
      cases active with
      | none => exact Ends.pure rfl
      | some active => exact Ends.pure rfl
  | some draft =>
      cases active with
      | some active =>
          apply Ends.bind
          apply Ends.askWith kept kept
          intro conditions reply after performs
          cases performs
          apply Ends.pure
          rw [if_pos rfl]
          refine ⟨key, _, found, .inl ⟨rfl, ?_⟩, ?_⟩
          · simp [Database.modify, found]
          · simpa [Database.modify, found] using idle
      | none =>
          apply Ends.bind
          apply Ends.askWith kept kept
          intro conditions reply after performs
          cases performs
          apply Ends.pure
          rw [if_pos rfl]
          exact ⟨key, _, found, .inr ⟨rfl, rfl⟩, idle⟩

theorem ends_deleteDraft (idle : db.writes = []) (subject : String)
    (kind : DraftKind) (name : String) :
    Ends (Unchanged db) (deleteDraft subject kind name) db
      fun discarded after =>
        if discarded then Discarded db after else after = db := by
  have kept := unchanged_self idle
  cases kind with
  | toolset =>
      apply Ends.bind
      apply Ends.principal kept
      intro caller
      apply Ends.bind
      apply Ends.ofExcept kept
      intro kind _
      cases toolsetKey kind caller name with
      | none => exact Ends.fail kept
      | some key => exact ends_discardDraft idle key
  | contextType =>
      apply Ends.bind
      apply Ends.bind
      apply Ends.principal kept
      intro caller
      split
      next =>
        apply Ends.pure
        exact ends_discardDraft idle (.type name)
      next => exact Ends.fail kept
  | other kind => exact Ends.fail kept

theorem versionOf_of_checkDraft {caller : CallerPrincipal} {name : String}
    {draft : Value} {reserved : List String} {version : String}
    (checked : checkDraft lymaille caller name draft reserved = .ok version) :
    versionOf draft = some version := by
  unfold checkDraft at checked
  cases found : lymaille.fromValue draft with
  | none =>
      rw [found] at checked
      cases checked
  | some toolset =>
      rw [found] at checked
      obtain ⟨_, _, checked⟩ := ok_of_bind checked
      obtain ⟨_, _, checked⟩ := ok_of_bind checked
      cases told : versionOf draft with
      | none =>
          rw [told] at checked
          cases checked
      | some other =>
          rw [told] at checked
          cases checked
          rfl

section Transaction

variable {err : Database → Prop} {start : Database} {tx : ℕ} {key : Key}
  {row : Row} {name : String}

theorem seen_write (start : Database) (tx : ℕ) (key : Key) (row : Row) :
    (start.write tx key row).seen tx key = some row := by
  simp [Database.seen, Database.write]

theorem ends_updatePromote (kept : err start) {draft : Value}
    (found : start.seen tx key = some row) (drafted : row.draft = some draft)
    (version : String) :
    Ends err (updatePromote tx key name draft version) start fun _ after =>
      after = start.write tx key { row with active := some draft, version } := by
  apply Ends.bind
  apply Ends.askWith kept kept
  intro conditions affected promoted performs
  simp only [Database.perform, found, if_pos drafted] at performs
  cases performs
  rw [if_neg Nat.one_ne_zero]
  exact Ends.pure rfl

theorem ends_clearDraft (kept : err start) (found : start.seen tx key = some row)
    (drafted : row.draft.isSome = true) :
    Ends err (clearDraft tx key name) start fun _ after =>
      after = start.write tx key { row with draft := none } := by
  apply Ends.bind
  apply Ends.askWith kept kept
  intro conditions affected cleared performs
  simp only [Database.perform, found, drafted, if_true] at performs
  cases performs
  rw [if_neg Nat.one_ne_zero]
  exact Ends.pure rfl

end Transaction

/-- The two writes of a promotion and its commit, which nothing else sees. -/
theorem ends_promoteDraft (idle : db.writes = []) {key : Key} {row : Row}
    {draft : Value} (found : db.rows.lookup key = some row)
    (drafted : row.draft = some draft) (name version : String) :
    Ends (Unchanged db) (promoteDraft key name draft version false) db
      fun _ after =>
        after.rows = db.rows.insert key
          { row with active := some draft, version, draft := none } ∧
        after.writes = [] := by
  have kept := unchanged_self idle
  apply Ends.bind
  apply Ends.askWith kept kept
  intro conditions tx begun performs
  cases performs
  have inside : InTransaction db db.transactions
      { db with transactions := db.transactions + 1 } := by
    refine ⟨rfl, ?_⟩
    intro write member
    rw [idle] at member
    cases member
  have seen : Database.seen { db with transactions := db.transactions + 1 }
      db.transactions key = some row := by
    simp [Database.seen, idle, found]
  apply Ends.bind
  apply Ends.orRollback
  apply (ends_updatePromote inside seen drafted version).mono
  intro _ promoted same
  subst same
  have insideToo := inside.write key
    { row with active := some draft, version }
  apply Ends.bind
  apply Ends.orRollback
  apply Ends.pure
  apply Ends.bind
  apply Ends.orRollback
  apply (ends_clearDraft insideToo (seen_write _ _ _ _)
    (by rw [drafted]; rfl)).mono
  intro _ cleared same
  subst same
  have rolled := (insideToo.write key
    { row with active := some draft, version, draft := none }).rollback
  apply Ends.statement rolled
  · intro conditions text performs
    cases performs
  · intro conditions reply after performs
    cases performs
    refine ⟨?_, rolled.2⟩
    simp [Database.commit, Database.write, idle, AList.insert_insert]

theorem ends_activateToolset (idle : db.writes = []) (caller : CallerPrincipal)
    (name : String) :
    Ends (Unchanged db) (activateToolset lymaille caller name) db
      fun report after => Promoted lymaille caller name report db after := by
  have kept := unchanged_self idle
  apply Ends.bind
  apply Ends.ofExcept kept
  intro key keyed
  apply Ends.bind
  apply Ends.reads kept rfl
  intro conditions
  refine ⟨_, rfl, ?_⟩
  cases found : db.rows.lookup key with
  | none => exact Ends.fail kept
  | some row =>
  cases drafted : row.draft with
  | none =>
      rw [Option.map_some, drafted]
      exact Ends.fail kept
  | some draft =>
  rw [Option.map_some, drafted]
  apply Ends.bind
  apply Ends.ofExcept kept
  intro version checked
  apply Ends.bind
  apply (ends_promoteDraft idle found drafted name version).mono
  intro _ after promoted
  apply Ends.pure
  exact ⟨key, row, draft, keyed, found, drafted, checked, rfl, rfl, promoted⟩

end MiryadCore.Drafts
