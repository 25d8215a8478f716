import MiryadCore.Drafts.Alone
import MiryadCore.Drafts.ContextTypes

/-!
# The rows of the context types

A row ought to have a version, the name of each of its versions, which is one
of the catalog, and the version of its active one, or else of its draft.  The
stores take names that are not of the catalog; the hook does not look at the
name of a draft beside an active version; and a store that replaces the draft
of a row without an active version leaves the version of the row.
-/

namespace MiryadCore.Drafts

open Interactive
open Rest (AuthPrincipal HookError RestError)

variable {types : ContextTypes} {db after : Database}

/-- A type is written as the active version of its row. -/
def Stored (types : ContextTypes) (contextType : types.ContextType)
    (db after : Database) : Prop :=
  ∃ value name version row,
    types.toValue contextType = some value ∧ nameOf value = some name ∧
    versionOf value = some version ∧
    row.active = some value ∧ row.version = version ∧
    row.draft = (db.rows.lookup (.type name)).bind Row.draft ∧
    after.rows = db.rows.insert (.type name) row ∧ after.writes = []

/-- A type is written as the draft of its row. -/
def Drafted (types : ContextTypes) (contextType : types.ContextType)
    (db after : Database) : Prop :=
  ∃ value name version row,
    types.toValue contextType = some value ∧ nameOf value = some name ∧
    versionOf value = some version ∧ row.draft = some value ∧
    row.active = activeAt db (.type name) ∧
    (db.rows.lookup (.type name) = none → row.version = version) ∧
    (∀ before, db.rows.lookup (.type name) = some before →
      row.version = before.version) ∧
    after.rows = db.rows.insert (.type name) row ∧ after.writes = []

/-- What the hook has checked of the columns that it accepts. -/
structure Derived (body : Body) (name : String) (row : Row) : Prop where
  active : row.active = optionOf body.active
  draft : row.draft = optionOf body.draft
  reference : (row.active.or row.draft).bind nameOf = some name
  version : (row.active.or row.draft).bind versionOf = some row.version
  catalog : classify name = .ok .catalog

/-- The hook accepts the body, for a new row or for one that there is. -/
def Accepted (types : ContextTypes) (body : Body) : Prop :=
  ∃ existing active,
    validerEtDeriver types body.activeModel existing = .ok active

/-- The columns of a body are written to the row of their name. -/
def Written (types : ContextTypes) (body : Body) (db after : Database) : Prop :=
  ∃ name row, Accepted types body ∧ Derived body name row ∧
    after.rows = db.rows.insert (.type name) row ∧ after.writes = []

theorem Stored.idle {contextType : types.ContextType}
    (written : Stored types contextType db after) : after.writes = [] := by
  obtain ⟨_, _, _, _, _, _, _, _, _, _, _, idle⟩ := written
  exact idle

theorem Drafted.idle {contextType : types.ContextType}
    (written : Drafted types contextType db after) : after.writes = [] := by
  obtain ⟨_, _, _, _, _, _, _, _, _, _, _, _, idle⟩ := written
  exact idle

theorem Written.idle {body : Body} (written : Written types body db after) :
    after.writes = [] := by
  obtain ⟨_, _, _, _, _, idle⟩ := written
  exact idle

theorem Discarded.idle (discarded : Discarded db after) :
    after.writes = [] := by
  obtain ⟨_, _, _, _, idle⟩ := discarded
  exact idle

theorem storedField_ok {value : Value} {field what text : String}
    (told : storedField value field what = .ok text) :
    (value.get? field).bind Value.asString = some text := by
  unfold storedField at told
  split at told
  next other found =>
    cases told
    exact found
  next => cases told

theorem champTexte_ok {value : Value} {champ text : String}
    (told : champTexte value champ = .ok text) :
    (value.get? champ).bind Value.asString = some text := by
  unfold champTexte at told
  split at told
  next other found =>
    cases told
    exact found
  next => cases told

theorem ends_requireAdmin (idle : db.writes = []) (subject what : String)
    {post : CallerPrincipal → Database → Prop}
    (holds : ∀ caller, post caller db) :
    Ends (Unchanged db) (requireAdmin subject what) db post := by
  have kept := unchanged_self idle
  apply Ends.bind
  apply Ends.principal kept
  intro caller
  split
  next => exact Ends.pure (holds caller)
  next => exact Ends.fail kept

theorem ends_putType (idle : db.writes = []) (subject : String)
    (contextType : types.ContextType) :
    Ends (Unchanged db) (putType types subject contextType) db
      fun _ after => Stored types contextType db after := by
  have kept := unchanged_self idle
  apply Ends.bind
  apply ends_requireAdmin idle
  intro caller
  cases serialized : types.toValue contextType with
  | none => exact Ends.fail kept
  | some value =>
  apply Ends.bind
  apply Ends.ofExcept kept
  intro name named
  apply Ends.bind
  apply Ends.ofExcept kept
  intro version versioned
  cases types.fromValue value with
  | error cause => exact Ends.fail kept
  | ok _ =>
  apply Ends.askWith kept kept
  intro conditions reply after performs
  have name_eq := storedField_ok named
  have version_eq := storedField_ok versioned
  rcases Database.upsert_cases performs with ⟨found, rfl⟩ | ⟨row, found, rfl⟩
  · refine ⟨value, name, version, _, serialized, name_eq, version_eq, rfl, rfl,
      ?_, rfl, idle⟩
    rw [found]
    rfl
  · refine ⟨value, name, version, _, serialized, name_eq, version_eq, rfl, rfl,
      ?_, rfl, idle⟩
    rw [found]
    rfl

theorem ends_putTypeDraft (idle : db.writes = []) (subject : String)
    (contextType : types.ContextType) :
    Ends (Unchanged db) (putTypeDraft types subject contextType) db
      fun _ after => Drafted types contextType db after := by
  have kept := unchanged_self idle
  apply Ends.bind
  apply ends_requireAdmin idle
  intro caller
  cases serialized : types.toValue contextType with
  | none => exact Ends.fail kept
  | some value =>
  apply Ends.bind
  apply Ends.ofExcept kept
  intro name named
  apply Ends.bind
  apply Ends.ofExcept kept
  intro version versioned
  apply Ends.askWith kept kept
  intro conditions reply after performs
  have name_eq := storedField_ok named
  have version_eq := storedField_ok versioned
  rcases Database.upsert_cases performs with ⟨found, rfl⟩ | ⟨row, found, rfl⟩
  · refine ⟨value, name, version, _, serialized, name_eq, version_eq, rfl, ?_,
      fun _ => rfl, ?_, rfl, idle⟩
    · unfold activeAt
      rw [found]
      rfl
    · intro before same
      rw [found] at same
      cases same
  · refine ⟨value, name, version, _, serialized, name_eq, version_eq, rfl, ?_,
      ?_, ?_, rfl, idle⟩
    · unfold activeAt
      rw [found]
      rfl
    · intro absent
      rw [found] at absent
      cases absent
    · intro before same
      rw [found] at same
      cases same
      rfl

theorem optionOf_filter (value : Value) :
    (optionOf value).filter (fun version => version ≠ .null) =
      optionOf value := by
  cases value <;> rfl

theorem versionPresents_set (value : Value) :
    versionPresents (.set (optionOf value)) = optionOf value :=
  optionOf_filter value

/-- The hook accepts columns whose name and version are those of the reference. -/
theorem derived_of_hook {body : Body} {existing : Option String}
    {active : ActiveModel} {name : String} {row : Row}
    (accepted : validerEtDeriver types body.activeModel existing = .ok active)
    (told : active.row? = some (name, row)) :
    Derived body name row ∧ ∀ ligne, existing = some ligne → name = ligne := by
  unfold validerEtDeriver at accepted
  simp only [Body.activeModel, versionPresents_set] at accepted
  cases reference : (optionOf body.active).or (optionOf body.draft) with
  | none =>
      rw [reference] at accepted
      cases accepted
  | some brute =>
  rw [reference] at accepted
  dsimp only at accepted
  obtain ⟨autorises, _, accepted⟩ := ok_of_bind accepted
  obtain ⟨nom, named, accepted⟩ := ok_of_bind accepted
  split at accepted
  next classified =>
    obtain ⟨_, _, accepted⟩ := ok_of_bind accepted
    obtain ⟨version, versioned, accepted⟩ := ok_of_bind accepted
    have same : ∀ ligne, existing = some ligne → nom = ligne := by
      intro ligne is
      rw [is] at accepted
      dsimp only at accepted
      split at accepted
      next => cases accepted
      next equal => exact not_not.mp equal
    have written : active = { body.activeModel with
        name := .set nom
        version := .set version } := by
      split at accepted
      next ligne =>
        split at accepted
        next => cases accepted
        next =>
          cases accepted
          rfl
      next =>
        cases accepted
        rfl
    rw [written] at told
    cases told
    refine ⟨⟨rfl, rfl, ?_, ?_, classified⟩, same⟩
    · rw [reference]
      exact champTexte_ok named
    · rw [reference]
      exact champTexte_ok versioned
  next => cases accepted

theorem ends_writePolicy (idle : db.writes = []) (principal : AuthPrincipal)
    {post : Unit → Database → Prop} (holds : post () db) :
    Ends (Unchanged db) (writePolicy principal) db post := by
  have kept := unchanged_self idle
  apply Ends.bind
  apply Ends.reads kept rfl
  intro conditions
  refine ⟨_, rfl, ?_⟩
  apply Ends.bind
  apply Ends.reads kept rfl
  intro conditions
  refine ⟨_, rfl, ?_⟩
  split
  next => exact Ends.pure holds
  next => exact Ends.fail kept

/-- What the hook accepts goes to the row of its name. -/
theorem ends_accepted (idle : db.writes = []) {body : Body}
    {existing : Option String} {next : String × Row → Code RestError Unit}
    (writes : ∀ name row, Accepted types body → Derived body name row →
      (∀ ligne, existing = some ligne → name = ligne) →
      Ends (Unchanged db) (next (name, row)) db fun _ after =>
        Written types body db after) :
    Ends (Unchanged db)
      (ofHook (validerEtDeriver types body.activeModel existing) >>=
        fun active => columns active >>= next : Code RestError Unit)
      db fun _ after => Written types body db after := by
  have kept := unchanged_self idle
  apply Ends.bind
  apply Ends.ofExcept kept
  intro active accepted
  cases hook : validerEtDeriver types body.activeModel existing with
  | error error =>
      rw [hook] at accepted
      cases accepted
  | ok given =>
  rw [hook] at accepted
  cases accepted
  apply Ends.bind
  unfold columns
  cases told : active.row? with
  | none => exact Ends.fail kept
  | some row =>
      obtain ⟨name, row⟩ := row
      apply Ends.pure
      obtain ⟨derived, same⟩ := derived_of_hook hook told
      exact writes name row ⟨existing, active, hook⟩ derived same

theorem ends_create (idle : db.writes = []) (principal : AuthPrincipal)
    (body : Body) :
    Ends (Unchanged db) (create types principal body) db fun _ after =>
      Written types body db after := by
  have kept := unchanged_self idle
  apply Ends.bind
  apply ends_writePolicy idle
  apply ends_accepted idle
  intro name row accepted derived _
  apply Ends.askWith kept kept
  intro conditions reply after performs
  simp only [Database.perform] at performs
  split at performs
  next => cases performs
  next =>
    simp only [Database.insert] at performs
    split at performs
    next => cases performs
    next =>
      cases performs
      exact ⟨name, { row with id := conditions.id }, accepted,
        ⟨derived.active, derived.draft, derived.reference, derived.version,
          derived.catalog⟩, rfl, idle⟩

theorem ends_update (idle : db.writes = []) (principal : AuthPrincipal) (id : ℤ)
    (body : Body) :
    Ends (Unchanged db) (update types principal id body) db fun _ after =>
      Written types body db after := by
  have kept := unchanged_self idle
  apply Ends.bind
  apply ends_writePolicy idle
  apply Ends.bind
  apply Ends.reads kept rfl
  intro conditions
  refine ⟨_, rfl, ?_⟩
  cases found : db.findType id with
  | none => exact Ends.fail kept
  | some existing =>
  obtain ⟨ligne, before⟩ := existing
  apply ends_accepted idle
  intro name row accepted derived same
  apply Ends.askWith kept kept
  intro conditions reply after performs
  simp only [Database.perform, found, if_pos (same ligne rfl).symm] at performs
  cases performs
  exact ⟨name, { row with id }, accepted, ⟨derived.active, derived.draft,
    derived.reference, derived.version, derived.catalog⟩, rfl, idle⟩

inductive TypeCall (types : ContextTypes) where
  | create (principal : AuthPrincipal) (body : Body)
  | update (principal : AuthPrincipal) (id : ℤ) (body : Body)
  | putType (subject : String) (contextType : types.ContextType)
  | putTypeDraft (subject : String) (contextType : types.ContextType)
  | deleteDraft (subject : String) (kind : DraftKind) (name : String)

/-- The database after a call, whatever it returns. -/
def TypeCall.leaves (call : TypeCall types) (envs : ℕ → Conditions)
    (db : Database) : Database :=
  match call with
  | .create principal body =>
      (Script.run exec envs (Drafts.create types principal body) db).2
  | .update principal id body =>
      (Script.run exec envs (Drafts.update types principal id body) db).2
  | .putType subject contextType =>
      (Script.run exec envs (Drafts.putType types subject contextType) db).2
  | .putTypeDraft subject contextType =>
      (Script.run exec envs (Drafts.putTypeDraft types subject contextType)
        db).2
  | .deleteDraft subject kind name =>
      (Script.run exec envs (Drafts.deleteDraft subject kind name) db).2

/-- The database after some calls, each under its own conditions. -/
def reached (calls : List (TypeCall types × (ℕ → Conditions))) : Database :=
  calls.foldl (fun db call => call.1.leaves call.2 db) Database.empty

/-- What each row ought to be. -/
structure Row.Consistent (name : String) (row : Row) : Prop where
  present : row.active.isSome ∨ row.draft.isSome
  active : ∀ value, row.active = some value → nameOf value = some name
  draft : ∀ value, row.draft = some value → nameOf value = some name
  catalog : classify name = .ok .catalog
  version : (row.active.or row.draft).bind versionOf = some row.version

def AllConsistent (db : Database) : Prop :=
  ∀ name row, db.rows.lookup (.type name) = some row → row.Consistent name

/-- A draft beside an active version has the name of the latter. -/
def Body.OfOneName (body : Body) : Prop :=
  ∀ active draft, optionOf body.active = some active →
    optionOf body.draft = some draft → nameOf draft = nameOf active

/-- The stores are given names of the catalog; a draft that replaces the one of
a row without an active version has its version; and a body that the hook
accepts is of one name. -/
def TypeCall.Careful (db : Database) : TypeCall types → Prop
  | .create _ body => Accepted types body → body.OfOneName
  | .update _ _ body => Accepted types body → body.OfOneName
  | .putType _ contextType => ∀ value name,
      types.toValue contextType = some value → nameOf value = some name →
      classify name = .ok .catalog
  | .putTypeDraft _ contextType => ∀ value name,
      types.toValue contextType = some value → nameOf value = some name →
      classify name = .ok .catalog ∧
        ∀ row, db.rows.lookup (.type name) = some row → row.active = none →
          versionOf value = some row.version
  | .deleteDraft _ _ _ => True

theorem AllConsistent.insert (consistent : AllConsistent db) {key : Key}
    {row : Row} (rows : after.rows = db.rows.insert key row)
    (fits : ∀ name, key = .type name → row.Consistent name) :
    AllConsistent after := by
  intro name there found
  rw [rows] at found
  by_cases same : Key.type name = key
  · subst same
    rw [AList.lookup_insert] at found
    cases found
    exact fits name rfl
  · rw [AList.lookup_insert_ne same] at found
    exact consistent name there found

theorem Stored.consistent (consistent : AllConsistent db)
    {contextType : types.ContextType}
    (written : Stored types contextType db after)
    (careful : ∀ value name, types.toValue contextType = some value →
      nameOf value = some name → classify name = .ok .catalog) :
    AllConsistent after := by
  obtain ⟨value, name, version, row, serialized, named, versioned, active,
    told, draft, rows, _⟩ := written
  apply consistent.insert rows
  intro other same
  cases same
  refine ⟨?_, ?_, ?_, careful value name serialized named, ?_⟩
  · rw [active]
    exact Or.inl rfl
  · intro other is
    rw [active] at is
    cases is
    exact named
  · intro other is
    rw [draft] at is
    obtain ⟨before, found, is⟩ := Option.bind_eq_some_iff.mp is
    exact (consistent name before found).draft other is
  · rw [active, told]
    exact versioned

theorem Drafted.consistent (consistent : AllConsistent db)
    {contextType : types.ContextType}
    (written : Drafted types contextType db after)
    (careful : ∀ value name, types.toValue contextType = some value →
      nameOf value = some name → classify name = .ok .catalog ∧
        ∀ row, db.rows.lookup (.type name) = some row → row.active = none →
          versionOf value = some row.version) :
    AllConsistent after := by
  obtain ⟨value, name, version, row, serialized, named, versioned, draft,
    active, fresh, old, rows, _⟩ := written
  obtain ⟨catalog, replaces⟩ := careful value name serialized named
  apply consistent.insert rows
  intro other same
  cases same
  refine ⟨?_, ?_, ?_, catalog, ?_⟩
  · rw [draft]
    exact Or.inr rfl
  · intro other is
    rw [active] at is
    obtain ⟨before, found, is⟩ := Option.bind_eq_some_iff.mp is
    exact (consistent name before found).active other is
  · intro other is
    rw [draft] at is
    cases is
    exact named
  · unfold activeAt at active
    cases found : db.rows.lookup (.type name) with
    | none =>
        rw [found] at active
        rw [active, draft, fresh found]
        exact versioned
    | some before =>
        rw [found] at active
        rw [show row.active = before.active from active, draft,
          old before found]
        have version := (consistent name before found).version
        cases is : before.active with
        | none => exact replaces before found is
        | some other =>
            rw [is] at version
            exact version

theorem Written.consistent (consistent : AllConsistent db) {body : Body}
    (written : Written types body db after)
    (careful : Accepted types body → body.OfOneName) :
    AllConsistent after := by
  obtain ⟨name, row, accepted, derived, rows, _⟩ := written
  have reference := derived.reference
  apply consistent.insert rows
  intro other same
  cases same
  refine ⟨?_, ?_, ?_, derived.catalog, derived.version⟩
  · cases active : row.active with
    | some value => exact Or.inl rfl
    | none =>
        rw [active] at reference
        obtain ⟨value, is, _⟩ := Option.bind_eq_some_iff.mp reference
        exact Or.inr (Option.isSome_of_eq_some is)
  · intro value is
    rw [is] at reference
    exact reference
  · intro value is
    cases active : row.active with
    | none =>
        rw [active, is] at reference
        exact reference
    | some other =>
        rw [active] at reference
        have same := careful accepted other value
          (derived.active.symm.trans active) (derived.draft.symm.trans is)
        exact same.trans reference

theorem Discarded.consistent (consistent : AllConsistent db)
    (discarded : Discarded db after) : AllConsistent after := by
  obtain ⟨key, row, found, written, _⟩ := discarded
  rcases written with ⟨present, rows⟩ | ⟨_, rows⟩
  · apply consistent.insert rows
    intro name same
    subst same
    have before := consistent name row found
    refine ⟨Or.inl present, before.active, ?_, before.catalog, ?_⟩
    · intro other none
      cases none
    · have version := before.version
      obtain ⟨value, is⟩ := Option.isSome_iff_exists.mp present
      rw [is] at version ⊢
      exact version
  · intro name there is
    rw [rows] at is
    by_cases here : Key.type name = key
    · rw [here, AList.lookup_erase] at is
      cases is
    · rw [AList.lookup_erase_ne here] at is
      exact consistent name there is

/-- What the rows keep from call to call. -/
structure Database.Sound (db : Database) : Prop where
  idle : db.writes = []
  rows : AllConsistent db

theorem Unchanged.sound (sound : db.Sound) (unchanged : Unchanged db after) :
    after.Sound := by
  obtain ⟨rows, idle⟩ := unchanged
  refine ⟨idle, ?_⟩
  intro name row found
  rw [rows] at found
  exact sound.rows name row found

theorem Ends.sound {ε α : Type} {code : Code ε α} {post : α → Database → Prop}
    (sound : db.Sound) (ends : Ends (Unchanged db) code db post)
    (keeps : ∀ value after, post value after → after.Sound)
    (envs : ℕ → Conditions) : (Script.run exec envs code db).2.Sound := by
  have final := Script.Meets.run (fun _ => rfl) envs ends
  cases result : (Script.run exec envs code db).1 with
  | ok value =>
      rw [result] at final
      exact keeps value _ final
  | error error =>
      rw [result] at final
      exact Unchanged.sound sound final

theorem TypeCall.sound (sound : db.Sound) (call : TypeCall types)
    (envs : ℕ → Conditions) (careful : call.Careful db) :
    (call.leaves envs db).Sound := by
  cases call with
  | create principal body =>
      apply Ends.sound sound (ends_create sound.idle principal body)
      intro _ after written
      exact ⟨written.idle, written.consistent sound.rows careful⟩
  | update principal id body =>
      apply Ends.sound sound (ends_update sound.idle principal id body)
      intro _ after written
      exact ⟨written.idle, written.consistent sound.rows careful⟩
  | putType subject contextType =>
      apply Ends.sound sound (ends_putType sound.idle subject contextType)
      intro _ after written
      exact ⟨written.idle, written.consistent sound.rows careful⟩
  | putTypeDraft subject contextType =>
      apply Ends.sound sound (ends_putTypeDraft sound.idle subject contextType)
      intro _ after written
      exact ⟨written.idle, written.consistent sound.rows careful⟩
  | deleteDraft subject kind name =>
      apply Ends.sound sound (ends_deleteDraft sound.idle subject kind name)
      intro discarded after holds
      cases discarded with
      | true => exact ⟨Discarded.idle holds, Discarded.consistent sound.rows holds⟩
      | false => exact (show after = db from holds) ▸ sound

/-- Each call of the run is careful with the rows that it meets. -/
def AllCareful (calls : List (TypeCall types × (ℕ → Conditions))) : Prop :=
  ∀ before entry later, calls = before ++ entry :: later →
    entry.1.Careful (reached before)

theorem AllCareful.of_prefix
    {earlier calls : List (TypeCall types × (ℕ → Conditions))}
    (careful : AllCareful calls) (begins : earlier <+: calls) :
    AllCareful earlier := by
  obtain ⟨more, rfl⟩ := begins
  intro before entry later split
  apply careful before entry (later ++ more)
  rw [split, List.append_assoc, List.cons_append]

theorem reached_append (calls : List (TypeCall types × (ℕ → Conditions)))
    (entry : TypeCall types × (ℕ → Conditions)) :
    reached (calls ++ [entry]) = entry.1.leaves entry.2 (reached calls) := by
  unfold reached
  rw [List.foldl_append]
  rfl

theorem sound_of_careful (calls : List (TypeCall types × (ℕ → Conditions)))
    (careful : AllCareful calls) : (reached calls).Sound := by
  induction calls using List.reverseRecOn with
  | nil =>
      refine ⟨rfl, ?_⟩
      intro name row found
      simp [reached, Database.empty] at found
  | append_singleton calls entry induction =>
      rw [reached_append]
      apply TypeCall.sound
      · exact induction (careful.of_prefix (List.prefix_append _ _))
      · exact careful calls entry [] rfl

/-- In every run of careful calls from an empty table, every state reached has
consistent rows only. -/
theorem consistent_of_careful (types : ContextTypes)
    (calls : List (TypeCall types × (ℕ → Conditions)))
    (careful : AllCareful calls) :
    ∀ earlier, earlier <+: calls → AllConsistent (reached earlier) :=
  fun earlier begins =>
    (sound_of_careful earlier (careful.of_prefix begins)).rows

/-- Context types that have a name and a version. -/
def bareTypes : ContextTypes where
  ContextType := String × String
  toValue contextType := some (.object
    [("name", .string contextType.1), ("version", .string contextType.2)])
  fromValue value :=
    match value with
    | .object [("name", .string name), ("version", .string version)] =>
        .ok (name, version)
    | _ => .error "invalid type"
  defaultAgent _ := none

theorem AllCareful.snoc {calls : List (TypeCall types × (ℕ → Conditions))}
    {entry : TypeCall types × (ℕ → Conditions)} (careful : AllCareful calls)
    (last : entry.1.Careful (reached calls)) : AllCareful (calls ++ [entry]) := by
  intro before other later split
  rcases List.eq_nil_or_concat later with rfl | ⟨more, final, rfl⟩
  · obtain ⟨rfl, same⟩ := List.append_inj' split rfl
    cases same
    exact last
  · rw [List.concat_eq_append, ← List.cons_append, ← List.append_assoc]
      at split
    exact careful before other more (List.append_inj' split rfl).1

def administered (id : ℤ) : ℕ → Conditions :=
  fun _ => { admin := true, id }

def typeValue (name version : String) : Value :=
  .object [("name", .string name), ("version", .string version)]

def typeBody (active draft : Value) : Body :=
  { id := 0, name := "", version := "", allowedAgents := .array [], active
    draft }

def root : AuthPrincipal :=
  { subject := "root", email := none, preferredUsername := none
    source := .apiToken 1 }

/-- A draft is written twice and activated; a type with a draft is created, and
the first draft is thrown away. -/
def tended : List (TypeCall bareTypes × (ℕ → Conditions)) :=
  ((([] ++ [(.putTypeDraft "root" ("G_a", "1.0.0"), administered 1)]) ++
    [(.putTypeDraft "root" ("G_a", "1.0.0"), administered 1)]) ++
    [(.putType "root" ("G_a", "2.0.0"), administered 1)]) ++
    [(.create root (typeBody (typeValue "G_b" "1.0.0")
      (typeValue "G_b" "2.0.0")), administered 2)] ++
    [(.deleteDraft "root" .contextType "G_a", administered 1)]

theorem consistent_of_careful_tended :
    (∀ earlier, earlier <+: tended → AllConsistent (reached earlier)) ∧
      (reached tended).rows.lookup (.type "G_a") = some
        { id := 1, version := "2.0.0", allowedAgents := .array []
          active := some (typeValue "G_a" "2.0.0"), draft := none } ∧
      ((reached tended).rows.lookup (.type "G_b")).isSome = true := by
  refine ⟨consistent_of_careful bareTypes tended ?_, by decide +kernel,
    by decide +kernel⟩
  have begins : AllCareful ([] : List (TypeCall bareTypes × (ℕ → Conditions))) := by
    intro before entry later split
    simp at split
  refine ((((begins.snoc ?_).snoc ?_).snoc ?_).snoc ?_).snoc trivial
  · rintro value name ⟨⟩ ⟨⟩
    refine ⟨by decide, fun row found => ?_⟩
    cases found
  · rintro value name ⟨⟩ ⟨⟩
    refine ⟨by decide, fun row found _ => ?_⟩
    have same : (@reached bareTypes ([] ++ [(.putTypeDraft "root"
        ("G_a", "1.0.0"), administered 1)])).rows.lookup (.type "G_a") = some
        { id := 1, version := "1.0.0", allowedAgents := .array []
          active := none, draft := some (typeValue "G_a" "1.0.0") } := by
      decide +kernel
    cases found.symm.trans same
    rfl
  · rintro value name ⟨⟩ ⟨⟩
    decide
  · rintro _ active draft ⟨⟩ ⟨⟩
    rfl

/-- An administrator stores a type whose name is not of the catalog, replaces
a draft by one of another version, and creates a type with a draft of another
name. -/
theorem inconsistent_rows :
    ¬ AllConsistent (@reached bareTypes
      [(.putType "root" ("cluster", "1.0.0"), administered 1)]) ∧
    ¬ AllConsistent (@reached bareTypes
      [(.putTypeDraft "root" ("G_a", "1.0.0"), administered 1),
        (.putTypeDraft "root" ("G_a", "2.0.0"), administered 1)]) ∧
    ¬ AllConsistent (@reached bareTypes
      [(.create root (typeBody (typeValue "G_a" "1.0.0")
        (typeValue "G_b" "1.0.0")), administered 1)]) := by
  refine ⟨fun all => ?_, fun all => ?_, fun all => ?_⟩
  · have row := all "cluster"
      { id := 1, version := "1.0.0", allowedAgents := .array []
        active := some (typeValue "cluster" "1.0.0"), draft := none }
      (by decide +kernel)
    exact absurd row.catalog (by decide +kernel)
  · have row := all "G_a"
      { id := 1, version := "1.0.0", allowedAgents := .array []
        active := none, draft := some (typeValue "G_a" "2.0.0") }
      (by decide +kernel)
    exact absurd row.version (by decide +kernel)
  · have row := all "G_a"
      { id := 1, version := "1.0.0", allowedAgents := .array []
        active := some (typeValue "G_a" "1.0.0")
        draft := some (typeValue "G_b" "1.0.0") }
      (by decide +kernel)
    exact absurd (row.draft _ rfl) (by decide +kernel)

end MiryadCore.Drafts
