import Mathlib.Data.List.Sort
import MiryadCore.Control.Observation
import MiryadCore.Interactive.Sessions

/-!
# The list of the sessions of a subject

The index looks for the latest sessions that match a filter, up to a limit,
and the manager then loads each of them for the subject.  An administrator's
index is that of all users.
-/

namespace MiryadCore.Interactive

/-- What the list needs of the states of `lymaille`: the format in which they
are stored, what a filter looks at, and their summaries. -/
structure StateParts where
  State : Type
  fromJson : String → Except SessionError State
  agentName : State → String
  reviewRequested : State → Bool
  Summary : Type
  summary : State → Summary
  /-- The session that a summary is of. -/
  session : Summary → SessionId

structure SessionFilter where
  kind : Option SessionKind := none
  agent : Option String := none
  reviewRequested : Bool := false
  limit : Option ℕ := none
  deriving DecidableEq, Repr

def DEFAULT_LIMIT : ℕ := 50

def MAX_LIMIT : ℕ := 200

def SessionFilter.bound (filter : SessionFilter) : ℕ :=
  min (filter.limit.getD DEFAULT_LIMIT) MAX_LIMIT

namespace SessionIndex

/-- The tables that a list reads. -/
structure Tables where
  accounts : String → Option ℤ
  admins : String → Bool
  sessions : Sessions String

/-- A session with its key. -/
abbrev Entry : Type := (String × SessionId) × SessionRow String

inductive Request where
  | account (subject : String)
  | admin (subject : String)
  | select (subject : Option String) (kind : Option String)
  | load (subject : String) (id : SessionId)

@[reducible]
def Request.Reply : Request → Type
  | .account _ => Option ℤ
  | .admin _ => Bool
  | .select _ _ => List Entry
  | .load _ _ => Option String

def Later (one other : Entry) : Prop :=
  other.2.updatedAt ≤ one.2.updatedAt

instance : DecidableRel Later :=
  fun one other =>
    inferInstanceAs (Decidable (other.2.updatedAt ≤ one.2.updatedAt))

instance : Std.Total Later :=
  ⟨fun one other => Nat.le_total other.2.updatedAt one.2.updatedAt⟩

instance : IsTrans Entry Later :=
  ⟨fun _ _ _ first second => Nat.le_trans second first⟩

/-- `ORDER BY updated_at DESC`. -/
def byRecency (entries : List Entry) : List Entry :=
  entries.insertionSort Later

/-- The conditions of the query on the subject and the kind. -/
def selected (subject kind : Option String) (entry : Entry) : Bool :=
  subject.all (fun subject => entry.1.1 = subject) &&
    kind.all fun kind => entry.2.kind = kind

def Tables.perform (tables : Tables) : (request : Request) → request.Reply
  | .account subject => tables.accounts subject
  | .admin subject => tables.admins subject
  | .select subject kind =>
      byRecency (tables.sessions.entries.filter (selected subject kind))
  | .load subject id => tables.sessions.load subject id

/-- One request, which fails with the text of an error of the database. -/
def exec : Script.Service Request
    (fun request => Except String request.Reply) (Option String) Tables :=
  fun fault tables request =>
    match fault with
    | some text => (.error text, tables)
    | none => (.ok (tables.perform request), tables)

abbrev Code (α : Type) : Type :=
  Query Request (fun request => Except String request.Reply) LymailleError α

/-- `Identity::resolve`. -/
def resolve (subject : String) : Code CallerPrincipal := do
  match ← Query.askWith LymailleError.store (Request.account subject) with
  | none => Query.fail .unknownSubject
  | some userId =>
      let isAdmin ← Query.askWith LymailleError.store (Request.admin subject)
      return { userId, subject, isAdmin }

/-- `SessionManager::principal`. -/
def principal (subject : String) : Code CallerPrincipal :=
  (resolve subject).mapError fun error =>
    match error with
    | .unknownSubject =>
        .forbidden "no local account for this session subject"
    | other => other

variable (parts : StateParts)

/-- The loop of the index keeps this row. -/
def keeps (filter : SessionFilter) (entry : Entry) : Bool :=
  match parts.fromJson entry.2.state with
  | .error _ => false
  | .ok state =>
      filter.agent.all (fun agent => parts.agentName state = agent) &&
        (!filter.reviewRequested || parts.reviewRequested state) &&
          entry.1.2 ≠ ""

/-- The loop of the index, until it has enough identifiers. -/
def collect (filter : SessionFilter) (limit : ℕ) :
    List Entry → List SessionId → List SessionId
  | [], ids => ids
  | entry :: entries, ids =>
      if limit ≤ ids.length then ids
      else if keeps parts filter entry then
        collect filter limit entries (ids ++ [entry.1.2])
      else collect filter limit entries ids

/-- `SeaSessionIndex::list`, its errors translated. -/
def index (subject : String) (filter : SessionFilter) :
    Code (List SessionId) := do
  let caller ← (resolve subject).mapError fun error => .store error.display
  let entries ← Query.askWith LymailleError.store
    (Request.select (if caller.isAdmin then none else some subject)
      (filter.kind.map SessionKind.text))
  return collect parts filter filter.bound entries []

/-- The loop of the manager on the identifiers. -/
def summaries (subject : String) : List SessionId → Code (List parts.Summary)
  | [] => return []
  | id :: ids => do
      match ← Query.askWith LymailleError.store (Request.load subject id) with
      | none => summaries subject ids
      | some text =>
          let state ← Query.ofExcept
            ((parts.fromJson text).mapError Manager.fromSession)
          let rest ← summaries subject ids
          return parts.summary state :: rest

/-- `SessionManager::list`. -/
def list (subject : String) (filter : SessionFilter) :
    Code (List parts.Summary) := do
  let _ ← principal subject
  let ids ← index parts subject filter
  summaries parts subject ids

/-- The filter is for this session. -/
def matching (filter : SessionFilter) (entry : Entry) : Bool :=
  selected none (filter.kind.map SessionKind.text) entry &&
    keeps parts filter entry

def own (subject : String) (entry : Entry) : Bool :=
  entry.1.1 = subject

/-- The sessions of everybody that the filter is for, latest first. -/
def matches_ (tables : Tables) (filter : SessionFilter) : List Entry :=
  (byRecency tables.sessions.entries).filter (matching parts filter)

/-- The first sessions of the subject that the filter is for. -/
def latest (tables : Tables) (subject : String) (filter : SessionFilter) :
    List Entry :=
  ((matches_ parts tables filter).filter (own subject)).take filter.bound

def summaryOf (text : String) : Option parts.Summary :=
  (parts.fromJson text).toOption.map parts.summary

/-- The sessions of the subject with these identifiers. -/
def summariesOf (tables : Tables) (subject : String) (ids : List SessionId) :
    List parts.Summary :=
  ids.filterMap fun id =>
    (tables.sessions.load subject id).bind (summaryOf parts)

/-- All states are readable. -/
def Readable (tables : Tables) : Prop :=
  ∀ entry ∈ tables.sessions.entries,
    ∃ state, parts.fromJson entry.2.state = .ok state

section Collection

variable {parts}

/-- An order that a condition on the entries does not disturb. -/
theorem filter_orderedInsert (p : Entry → Bool) (entry : Entry)
    {entries : List Entry} (sorted : entries.Pairwise Later) :
    (entries.orderedInsert Later entry).filter p =
      if p entry then (entries.filter p).orderedInsert Later entry
      else entries.filter p := by
  induction entries with
  | nil => by_cases kept : p entry <;> simp [kept]
  | cons other entries induction =>
      have rest := induction sorted.of_cons
      by_cases earlier : Later entry other
      · rw [List.orderedInsert_cons_of_le _ _ earlier]
        by_cases kept : p entry
        · rw [if_pos kept, List.filter_cons_of_pos kept]
          cases remaining : (other :: entries).filter p with
          | nil => rfl
          | cons first others =>
              have listed : first ∈ other :: entries :=
                List.mem_of_mem_filter (remaining ▸ List.mem_cons_self)
              have later : Later entry first := by
                rcases List.mem_cons.mp listed with same | member
                · exact same ▸ earlier
                · exact IsTrans.trans _ _ _ earlier
                    (List.rel_of_pairwise_cons sorted member)
              rw [List.orderedInsert_cons_of_le _ _ later]
        · rw [if_neg kept, List.filter_cons_of_neg kept]
      · rw [List.orderedInsert_of_not_le _ _ earlier]
        by_cases keptOther : p other
        · rw [List.filter_cons_of_pos keptOther,
            List.filter_cons_of_pos keptOther, rest]
          by_cases kept : p entry
          · rw [if_pos kept, if_pos kept,
              List.orderedInsert_of_not_le _ _ earlier]
          · rw [if_neg kept, if_neg kept]
        · rw [List.filter_cons_of_neg keptOther,
            List.filter_cons_of_neg keptOther, rest]

theorem byRecency_filter (p : Entry → Bool) (entries : List Entry) :
    byRecency (entries.filter p) = (byRecency entries).filter p := by
  unfold byRecency
  induction entries with
  | nil => rfl
  | cons entry entries induction =>
      rw [List.insertionSort_cons,
        filter_orderedInsert p entry (List.pairwise_insertionSort _ _)]
      by_cases kept : p entry
      · rw [if_pos kept, List.filter_cons_of_pos kept,
          List.insertionSort_cons, induction]
      · rw [if_neg kept, List.filter_cons_of_neg kept, induction]

/-- The loop of the index takes the identifiers up to the limit. -/
theorem collect_eq (filter : SessionFilter) (limit : ℕ)
    (entries : List Entry) {ids : List SessionId}
    (room : ids.length ≤ limit) :
    collect parts filter limit entries ids =
      ids ++ ((entries.filter (keeps parts filter)).take
        (limit - ids.length)).map fun entry => entry.1.2 := by
  induction entries generalizing ids with
  | nil => simp [collect]
  | cons entry entries induction =>
      rw [collect]
      by_cases full : limit ≤ ids.length
      · rw [if_pos full, Nat.sub_eq_zero_of_le full]
        simp
      · rw [if_neg full]
        by_cases kept : keeps parts filter entry
        · have more : (ids ++ [entry.1.2]).length ≤ limit := by
            rw [List.length_append, List.length_singleton]
            omega
          have left : limit - ids.length =
              limit - (ids ++ [entry.1.2]).length + 1 := by
            rw [List.length_append, List.length_singleton]
            omega
          rw [if_pos kept, induction more, List.filter_cons_of_pos kept, left,
            List.take_succ_cons, List.map_cons, List.append_assoc,
            List.singleton_append]
        · rw [if_neg kept, induction room, List.filter_cons_of_neg kept]

end Collection

section Answer

variable {parts} {tables : Tables} {envs : ℕ → Option String}
  {subject : String}

/-- A call fails for want of an account, or by a statement that fails. -/
def Refusal (tables : Tables) (envs : ℕ → Option String) (subject : String)
    (_ : LymailleError) : Prop :=
  tables.accounts subject = none ∨ ∃ n, envs n ≠ none

/-- The code, alone with the tables. -/
abbrev Answers {α : Type} (code : Code α) (tables : Tables)
    (envs : ℕ → Option String) (subject : String) (post : α → Prop) : Prop :=
  Query.Observes (fun n => exec (envs n)) code tables post
    (Refusal tables envs subject)

theorem answers_request (request : Request) :
    Answers (Query.askWith LymailleError.store request) tables envs subject
      (fun answer => answer = tables.perform request) := by
  apply Query.Observes.askWith
  intro n
  cases fault : envs n with
  | none => exact .inl (by rw [exec])
  | some text =>
      refine .inr ⟨text, by rw [exec], .inr ⟨n, ?_⟩⟩
      rw [fault]
      exact Option.some_ne_none _

theorem answers_resolve :
    Answers (resolve subject) tables envs subject (fun caller =>
      tables.accounts subject ≠ none ∧
        caller.isAdmin = tables.admins subject) := by
  unfold resolve
  apply (answers_request (.account subject)).bind
  intro account found
  cases account with
  | none => exact Query.Observes.fail (.inl found.symm)
  | some userId =>
      apply (answers_request (.admin subject)).bind
      intro isAdmin told
      apply Query.Observes.pure
      refine ⟨?_, told⟩
      have known : tables.accounts subject = some userId := found.symm
      rw [known]
      exact Option.some_ne_none _

theorem answers_mapError {α : Type} {code : Code α} {post : α → Prop}
    (answers : Answers code tables envs subject post)
    (translate : LymailleError → LymailleError) :
    Answers (code.mapError translate) tables envs subject post := by
  apply Script.Meets.bind (fun _ => rfl)
  apply Script.Meets.mono answers
  intro result s holds later same
  subst same
  cases result with
  | ok value => exact holds
  | error error => exact holds

theorem answers_index (filter : SessionFilter) :
    Answers (index parts subject filter) tables envs subject (fun ids =>
      ids = (((matches_ parts tables filter).filter fun entry =>
        tables.admins subject || own subject entry).take filter.bound).map
          fun entry => entry.1.2) := by
  unfold index
  apply (answers_mapError answers_resolve _).bind
  intro caller told
  apply (answers_request (.select _ _)).bind
  intro entries found
  apply Query.Observes.pure
  rw [collect_eq _ _ _ (Nat.zero_le _), found]
  simp only [List.nil_append, List.length_nil, Nat.sub_zero, Tables.perform]
  rw [byRecency_filter, matches_, List.filter_filter, List.filter_filter]
  congr 3
  funext entry
  rw [told.2]
  unfold matching selected own
  cases tables.admins subject <;>
    simp [Bool.and_comm, Bool.and_left_comm]

theorem answers_summaries (readable : Readable parts tables)
    (ids : List SessionId) :
    Answers (summaries parts subject ids) tables envs subject (fun found =>
      found = summariesOf parts tables subject ids) := by
  induction ids with
  | nil => exact Query.Observes.pure rfl
  | cons id ids induction =>
      unfold summaries
      apply (answers_request (.load subject id)).bind
      intro text found
      have loaded : text = tables.sessions.load subject id := found
      unfold summariesOf
      rw [List.filterMap_cons, ← loaded]
      cases text with
      | none => exact induction
      | some text =>
          obtain ⟨row, listed, same⟩ := Option.map_eq_some_iff.mp loaded.symm
          obtain ⟨state, parsed⟩ :=
            readable _ (KeyedTable.find_eq_some.mp listed)
          have parsed : parts.fromJson text = .ok state := same ▸ parsed
          dsimp only
          rw [parsed]
          apply induction.bind
          intro rest told
          apply Query.Observes.pure
          simp [summaryOf, parsed, Except.toOption, told, summariesOf]

theorem answers_list (readable : Readable parts tables)
    (filter : SessionFilter) :
    Answers (list parts subject filter) tables envs subject (fun found =>
      tables.accounts subject ≠ none ∧
        found = summariesOf parts tables subject
          ((((matches_ parts tables filter).filter fun entry =>
            tables.admins subject || own subject entry).take filter.bound).map
              fun entry => entry.1.2)) := by
  unfold list
  apply (answers_mapError answers_resolve _).bind
  intro _ told
  apply (answers_index filter).bind
  intro ids found
  rw [← found]
  apply (answers_summaries readable ids).mono
  · exact fun _ same => ⟨told.1, same⟩
  · exact fun _ refused => refused

end Answer

/-- Summaries of the sessions of a list. -/
def summarised (entries : List Entry) : List parts.Summary :=
  entries.filterMap fun entry => summaryOf parts entry.2.state

/-- A list answers the first sessions of the subject that the filter is for,
whenever nothing fails. -/
structure Exact (tables : Tables) (subject : String) (filter : SessionFilter) :
    Prop where
  sound : ∀ envs found,
    (Script.run exec envs (list parts subject filter) tables).1 = .ok found →
      found = summarised parts (latest parts tables subject filter)
  answers : tables.accounts subject ≠ none → ∀ envs, (∀ n, envs n = none) →
    ∃ found,
      (Script.run exec envs (list parts subject filter) tables).1 = .ok found

/-- Among the first sessions of everybody, those whose identifiers the subject
has are its own first sessions. -/
def Undisplaced (tables : Tables) (subject : String) (filter : SessionFilter) :
    Prop :=
  (((matches_ parts tables filter).take filter.bound).map
      fun entry => entry.1.2).filter
        (fun id => (tables.sessions.load subject id).isSome) =
    (latest parts tables subject filter).map fun entry => entry.1.2

/-- Nobody answers, a user who is not an administrator does, or nothing of the
others comes in between. -/
def Unhindered (tables : Tables) (subject : String) (filter : SessionFilter) :
    Prop :=
  tables.accounts subject = none ∨ tables.admins subject = false ∨
    Undisplaced parts tables subject filter

/-- A stored state is that of its row, as its summary says. -/
def Named (tables : Tables) : Prop :=
  ∀ entry ∈ tables.sessions.entries, ∀ state,
    parts.fromJson entry.2.state = .ok state →
      parts.session (parts.summary state) = entry.1.2

/-- Nobody else has a session with an identifier of the subject. -/
def Apart (tables : Tables) (subject : String) : Prop :=
  ∀ entry ∈ tables.sessions.entries, entry.1.1 ≠ subject →
    tables.sessions.load subject entry.1.2 = none

section Exact

variable {parts} {tables : Tables} {subject : String}
  {filter : SessionFilter}

theorem mem_matches {entry : Entry}
    (listed : entry ∈ matches_ parts tables filter) :
    entry ∈ tables.sessions.entries :=
  (List.mem_insertionSort Later).mp (List.mem_of_mem_filter listed)

theorem load_of_own {entry : Entry} (listed : entry ∈ tables.sessions.entries)
    (mine : own subject entry = true) :
    tables.sessions.load subject entry.1.2 = some entry.2.state := by
  obtain rfl := of_decide_eq_true mine
  have found : tables.sessions.find (entry.1.1, entry.1.2) = some entry.2 :=
    KeyedTable.find_eq_some.mpr listed
  rw [Sessions.load, found]
  rfl

theorem summariesOf_own {entries : List Entry}
    (listed : ∀ entry ∈ entries, entry ∈ tables.sessions.entries)
    (mine : ∀ entry ∈ entries, own subject entry = true) :
    summariesOf parts tables subject (entries.map fun entry => entry.1.2) =
      summarised parts entries := by
  unfold summariesOf summarised
  rw [List.filterMap_map]
  apply List.filterMap_congr
  intro entry member
  rw [Function.comp_apply,
    load_of_own (listed entry member) (mine entry member)]
  rfl

theorem mem_latest {entry : Entry}
    (listed : entry ∈ latest parts tables subject filter) :
    entry ∈ tables.sessions.entries ∧ own subject entry = true := by
  obtain ⟨matched, mine⟩ := List.mem_filter.mp (List.mem_of_mem_take listed)
  exact ⟨mem_matches matched, mine⟩

theorem summariesOf_filter (ids : List SessionId) :
    summariesOf parts tables subject
        (ids.filter fun id => (tables.sessions.load subject id).isSome) =
      summariesOf parts tables subject ids := by
  induction ids with
  | nil => rfl
  | cons id ids induction =>
      unfold summariesOf at induction ⊢
      cases found : tables.sessions.load subject id with
      | none =>
          rw [List.filter_cons_of_neg (by simp [found]), List.filterMap_cons,
            found, induction]
          rfl
      | some text =>
          rw [List.filter_cons_of_pos (by simp [found]), List.filterMap_cons,
            List.filterMap_cons, induction]

theorem session_summariesOf (readable : Readable parts tables)
    (named : Named parts tables) (ids : List SessionId) :
    (summariesOf parts tables subject ids).map parts.session =
      ids.filter fun id => (tables.sessions.load subject id).isSome := by
  induction ids with
  | nil => rfl
  | cons id ids induction =>
      unfold summariesOf at induction ⊢
      rw [List.filterMap_cons]
      cases found : tables.sessions.load subject id with
      | none =>
          rw [List.filter_cons_of_neg (by simp [found]), ← induction]
          rfl
      | some text =>
          obtain ⟨row, listed, same⟩ := Option.map_eq_some_iff.mp found
          have listed := KeyedTable.find_eq_some.mp listed
          obtain ⟨state, parsed⟩ := readable _ listed
          have session := named _ listed state parsed
          have parsed : parts.fromJson text = .ok state := same ▸ parsed
          rw [List.filter_cons_of_pos (by simp [found]), ← induction]
          simp [summaryOf, parsed, Except.toOption, session]

theorem run_list (readable : Readable parts tables)
    (envs : ℕ → Option String) :
    (∃ found, (Script.run exec envs (list parts subject filter) tables).1 =
        .ok found ∧ tables.accounts subject ≠ none ∧
      found = summariesOf parts tables subject
        ((((matches_ parts tables filter).filter fun entry =>
          tables.admins subject || own subject entry).take filter.bound).map
            fun entry => entry.1.2)) ∨
      ∃ error, (Script.run exec envs (list parts subject filter) tables).1 =
        .error error ∧ Refusal tables envs subject error := by
  have answers : Answers (list parts subject filter) tables envs subject _ :=
    answers_list readable filter
  have ends := (answers.run fun n => n).2
  have runs : Script.run (fun n => exec (envs n)) (fun n => n)
      (list parts subject filter) tables =
        Script.run exec envs (list parts subject filter) tables :=
    Script.run_conditions envs (fun n => n) _ _
  exact runs ▸ ends

theorem take_of_user (parts : StateParts) (filter : SessionFilter)
    (user : tables.admins subject = false) :
    ((matches_ parts tables filter).filter fun entry =>
      tables.admins subject || own subject entry).take filter.bound =
        latest parts tables subject filter := by
  rw [latest, user]
  simp only [Bool.false_or]

theorem take_of_admin (parts : StateParts) (filter : SessionFilter)
    (admin : tables.admins subject = true) :
    ((matches_ parts tables filter).filter fun entry =>
      tables.admins subject || own subject entry).take filter.bound =
        (matches_ parts tables filter).take filter.bound := by
  rw [admin]
  simp only [Bool.true_or, List.filter_true]

theorem exact_of_unhindered (readable : Readable parts tables)
    (unhindered : Unhindered parts tables subject filter) :
    Exact parts tables subject filter := by
  have own : summariesOf parts tables subject
      ((latest parts tables subject filter).map fun entry => entry.1.2) =
        summarised parts (latest parts tables subject filter) :=
    summariesOf_own (fun _ listed => (mem_latest listed).1)
      fun _ listed => (mem_latest listed).2
  constructor
  case answers =>
    intro known envs faultless
    rcases run_list readable envs with ⟨found, answered, _⟩ | refused
    · exact ⟨found, answered⟩
    · obtain ⟨_, _, unknown | ⟨n, fault⟩⟩ := refused
      · exact absurd unknown known
      · exact absurd (faultless n) fault
  case sound =>
    intro envs found answered
    rcases run_list readable envs with ⟨other, same, known, told⟩ | refused
    · obtain rfl := Except.ok.inj (same.symm.trans answered)
      rw [told]
      rcases unhindered with unknown | user | undisplaced
      · exact absurd unknown known
      · rw [take_of_user parts filter user, own]
      · cases admin : tables.admins subject with
        | false =>
            have same := take_of_user parts filter admin
            rw [admin] at same
            rw [same, own]
        | true =>
            have same := take_of_admin parts filter admin
            rw [admin] at same
            rw [same, ← own, ← undisplaced, summariesOf_filter]
    · obtain ⟨_, failed, _⟩ := refused
      rw [failed] at answered
      cases answered

theorem unhindered_of_exact (readable : Readable parts tables)
    (named : Named parts tables) (exact : Exact parts tables subject filter) :
    Unhindered parts tables subject filter := by
  by_cases unknown : tables.accounts subject = none
  · exact .inl unknown
  cases admin : tables.admins subject with
  | false => exact .inr (.inl admin)
  | true =>
      refine .inr (.inr ?_)
      obtain ⟨found, answered⟩ := exact.answers unknown (fun _ => none)
        fun _ => rfl
      have listed := exact.sound _ _ answered
      rcases run_list readable fun _ => none with
        ⟨other, same, _, told⟩ | refused
      · obtain rfl := Except.ok.inj (same.symm.trans answered)
        rw [take_of_admin parts filter admin] at told
        have mine : ∀ entry ∈ latest parts tables subject filter,
            (tables.sessions.load subject entry.1.2).isSome = true := by
          intro entry member
          obtain ⟨stored, mine⟩ := mem_latest member
          rw [load_of_own stored mine]
          rfl
        rw [Undisplaced, ← session_summariesOf readable named, ← told, listed,
          ← summariesOf_own (fun _ listed => (mem_latest listed).1)
            fun _ listed => (mem_latest listed).2,
          session_summariesOf readable named, List.filter_eq_self]
        intro id member
        obtain ⟨entry, listed, rfl⟩ := List.mem_map.mp member
        exact mine entry listed
      · obtain ⟨_, failed, _⟩ := refused
        rw [failed] at answered
        cases answered

/-- The first entries that satisfy a condition are the first entries, or all
that satisfy it are among these. -/
theorem filter_take_eq_iff {α : Type} (p : α → Bool) (n : ℕ) (items : List α) :
    (items.take n).filter p = (items.filter p).take n ↔
      (∀ item ∈ items.take n, p item = true) ∨
        ∀ item ∈ items.drop n, p item = false := by
  induction items generalizing n with
  | nil => simp
  | cons item items induction =>
      cases n with
      | zero => simp
      | succ n =>
          rw [List.take_succ_cons, List.drop_succ_cons, List.forall_mem_cons]
          cases kept : p item with
          | true =>
              rw [List.filter_cons_of_pos kept, List.filter_cons_of_pos kept,
                List.take_succ_cons, List.cons.injEq, induction]
              simp
          | false =>
              rw [List.filter_cons_of_neg (by simp [kept]),
                List.filter_cons_of_neg (by simp [kept])]
              have split : items.filter p = (items.take n).filter p ++
                  (items.drop n).filter p := by
                rw [← List.filter_append, List.take_append_drop]
              have few : ((items.take n).filter p).length ≤ n :=
                (List.length_filter_le _ _).trans (List.length_take_le _ _)
              constructor
              · intro same
                refine .inr fun other member => ?_
                have length := congrArg List.length same
                rw [List.length_take] at length
                have whole := congrArg List.length split
                rw [List.length_append] at whole
                have none : (items.drop n).filter p = [] := by
                  rw [← List.length_eq_zero_iff]
                  omega
                rw [List.filter_eq_nil_iff] at none
                simpa using none other member
              · intro either
                rcases either with ⟨impossible, _⟩ | rest
                · cases impossible
                · have none : (items.drop n).filter p = [] := by
                    rw [List.filter_eq_nil_iff]
                    intro other member
                    simp [rest other member]
                  rw [split, none, List.append_nil,
                    List.take_of_length_le (few.trans (Nat.le_succ n))]

/-- Without identifiers in common, the others displace no session when the
first sessions are all the subject's, or are followed by none of its own. -/
theorem undisplaced_iff (apart : Apart tables subject) :
    Undisplaced parts tables subject filter ↔
      (∀ entry ∈ (matches_ parts tables filter).take filter.bound,
        own subject entry = true) ∨
      ∀ entry ∈ (matches_ parts tables filter).drop filter.bound,
        own subject entry = false := by
  have found : ∀ entry ∈ tables.sessions.entries,
      (tables.sessions.load subject entry.1.2).isSome =
        own subject entry := by
    intro entry listed
    cases mine : own subject entry with
    | true => rw [load_of_own listed mine]; rfl
    | false => rw [apart entry listed (of_decide_eq_false mine)]; rfl
  have kept : (((matches_ parts tables filter).take filter.bound).map
      fun entry => entry.1.2).filter
        (fun id => (tables.sessions.load subject id).isSome) =
      (((matches_ parts tables filter).take filter.bound).filter
        (own subject)).map fun entry => entry.1.2 := by
    rw [List.filter_map]
    congr 1
    apply List.filter_congr
    intro entry member
    exact found entry (mem_matches (List.mem_of_mem_take member))
  rw [← filter_take_eq_iff, Undisplaced, kept, latest]
  constructor
  · intro same
    have begins : ((matches_ parts tables filter).take filter.bound).filter
        (own subject) <+: (matches_ parts tables filter).filter
          (own subject) :=
      (List.take_prefix _ _).filter _
    have length := congrArg List.length same
    rw [List.length_map, List.length_map] at length
    exact (List.prefix_of_prefix_length_le begins (List.take_prefix _ _)
      length.le).eq_of_length length
  · intro same
    rw [same]

end Exact

/-- A list is that of the sessions of the subject exactly when the subject has
no account, is not an administrator, or is displaced by nobody among the first
sessions of all; which the identifiers tell, and the owners alone when nobody
shares an identifier with the subject. -/
theorem list_exact_iff (parts : StateParts) (tables : Tables)
    (readable : Readable parts tables) (subject : String)
    (filter : SessionFilter) :
    (Unhindered parts tables subject filter →
      Exact parts tables subject filter) ∧
    (Named parts tables → Exact parts tables subject filter →
      Unhindered parts tables subject filter) ∧
    (Apart tables subject → (Undisplaced parts tables subject filter ↔
      (∀ entry ∈ (matches_ parts tables filter).take filter.bound,
        own subject entry = true) ∨
      ∀ entry ∈ (matches_ parts tables filter).drop filter.bound,
        own subject entry = false)) :=
  ⟨exact_of_unhindered readable, unhindered_of_exact readable,
    undisplaced_iff⟩

/-- States that are no more than the identifier of their session. -/
def bareStates : StateParts where
  State := String
  fromJson := .ok
  agentName _ := "agent"
  reviewRequested _ := false
  Summary := String
  summary state := state
  session summary := summary

def stored (id : SessionId) (updatedAt : ℕ) : SessionRow String where
  kind := "work"
  state := id
  updatedAt
  context := some "context"

/-- Alice, an administrator, has a session; that of bob is later. -/
def twoUsers : Tables where
  accounts subject :=
    if subject = "alice" then some 1
    else if subject = "bob" then some 2
    else none
  admins subject := subject = "alice"
  sessions :=
    { entries :=
        [(("alice", "s1"), stored "s1" 1), (("bob", "s2"), stored "s2" 2)]
      nodup := by decide }

theorem twoUsers_readable : Readable bareStates twoUsers :=
  fun entry _ => ⟨entry.2.state, rfl⟩

theorem list_exact_bob :
    Exact bareStates twoUsers "bob" { limit := some 1 } :=
  (list_exact_iff bareStates twoUsers twoUsers_readable "bob"
    { limit := some 1 }).1 (.inr (.inl rfl))

/-- The session of another user takes the place of the administrator's own. -/
theorem administrator_displaced :
    ¬ ∀ (tables : Tables) (subject : String) (filter : SessionFilter),
      Readable bareStates tables →
        Exact bareStates tables subject filter := by
  intro all
  have exact := all twoUsers "alice" { limit := some 1 } twoUsers_readable
  have listed := exact.sound (fun _ => none) [] rfl
  exact absurd (congrArg List.length listed) (by decide +kernel)

end SessionIndex

end MiryadCore.Interactive
