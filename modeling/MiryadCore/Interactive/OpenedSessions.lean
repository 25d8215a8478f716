import MiryadCore.Interactive.StoredSessions

/-!
# The sessions that `open_` writes

`open_` saves a session and then stamps its context, in two statements.  What a
call that fails has left behind is a session whose context could not be
stamped; otherwise a session keeps the context that it was opened on through
all saves.
-/

namespace MiryadCore.Interactive.Stored

open Manager (Section Conditions)

variable {parts : Parts}

/-- The sections of `open_` before its first write. -/
def Prepares : Section → Prop
  | .count _ | .uuid | .now => True
  | request => request.Asks

inductive Stage where
  | other
  | clean (subject context : String)
  | saved (subject context : String) (id : SessionId)
  | stamped (subject context : String) (id : SessionId)
  | unstamped

def Stage.allows : Stage → Request → Prop
  | .other, .section_ request => request.Unstored
  | .other, .save _ _ => True
  | .clean subject _, .section_ request =>
      Prepares request ∨ ∃ state, request = .save subject state
  | .saved subject context id, request =>
      request = .section_ (.stampContext subject id context)
  | .stamped _ _ _, .section_ request => request.Unstored
  | _, _ => False

def Stage.next : Stage → (request : Request) → request.Reply → Stage
  | .clean subject context, .section_ (.save _ state), .ok () =>
      .saved subject context state.id
  | .saved subject context id, .section_ (.stampContext _ _ _), .ok () =>
      .stamped subject context id
  | .saved _ _ _, .section_ (.stampContext _ _ _), .error _ => .unstamped
  | stage, _, _ => stage

def Stage.ends : Call → Stage → Manager.Answer → Prop
  | .manager (.open_ subject context _), stage, answer =>
      (∃ handle, answer = .opened (.ok handle) ∧
        stage = .stamped subject context handle.id) ∨
      ∃ error, answer = .opened (.error error) ∧
        (stage = .clean subject context ∨ stage = .unstamped)
  | _, _, _ => True

def opening : Protocol Call Request Request.Reply Manager.Answer Stage where
  start
    | .manager (.open_ subject context _) => .clean subject context
    | _ => .other
  allows := Stage.allows
  next := Stage.next
  ends := Stage.ends

/-- The stages, as the sections of the manager have them. -/
abbrev sections : Protocol Call Section Section.Reply Manager.Answer Stage :=
  opening.comap Request.section_

theorem clean_of_asking {α : Type} {code : Manager.Code α}
    (asking : Manager.Asking code) (subject context : String) :
    Query.Rests sections (.clean subject context) code fun _ => True := by
  apply asking.only.rests
  · intro request asks
    refine .inl ?_
    cases request <;> first | exact asks.elim | trivial
  · intro request asks answer
    cases request <;> first | exact asks.elim | rfl

theorem clean_of_checkCount (bound : ℕ) (caller : CallerPrincipal)
    (subject context : String) :
    Query.Rests sections (.clean subject context)
      (Manager.checkCount bound caller subject) fun _ => True := by
  unfold Manager.checkCount
  split
  next => exact .pure trivial
  next =>
    refine ⟨.inl trivial, fun count => ?_⟩
    show Query.Rests sections (.clean subject context)
      (if bound ≤ count then Manager.throw Manager.tooMany else pure ())
      fun _ => True
    split
    next => exact .fail _
    next => exact .pure trivial

/-- The ends of an opening, before its result is wrapped. -/
def Opened (subject context : String) (stage : Stage)
    (result : Except LymailleError SessionHandle) : Prop :=
  (∃ handle, result = .ok handle ∧
    stage = .stamped subject context handle.id) ∨
  ∃ error, result = .error error ∧
    (stage = .clean subject context ∨ stage = .unstamped)

theorem obeys_open (bound : ℕ) (subject context : String)
    (agent : Option String) :
    Script.Obeys sections (Manager.open_ bound subject context agent)
      (.clean subject context) (Opened subject context) := by
  have fails : ∀ error, Opened subject context (.clean subject context)
      (.error error) := fun error => .inr ⟨error, rfl, .inl rfl⟩
  apply (clean_of_asking (Manager.asking_principal subject) subject
    context).then fails
  intro caller _
  apply (clean_of_asking (Manager.asking_resolveStart caller context agent) _
    _).then fails
  intro start _
  apply (clean_of_checkCount bound caller subject context).then fails
  intro _ _
  apply (clean_of_asking (Manager.asking_toolsetVersions subject _) _ _).then
    fails
  intro versions _
  refine ⟨.inl trivial, fun id => ⟨.inl trivial, fun createdAt =>
    ⟨.inr ⟨_, rfl⟩, fun saved => ?_⟩⟩⟩
  cases saved with
  | error cause => exact .inr ⟨_, rfl, .inl rfl⟩
  | ok _ =>
      refine ⟨rfl, fun stamped => ?_⟩
      cases stamped with
      | error text => exact .inr ⟨_, rfl, .inr rfl⟩
      | ok _ =>
          exact ⟨trivial, fun _ => ⟨trivial, fun _ => ⟨trivial, fun _ =>
            .inl ⟨_, rfl, rfl⟩⟩⟩⟩

theorem obeys_of_unstoring {α : Type} {code : Manager.Code α}
    (unstoring : Manager.Unstoring code)
    (answer : Except LymailleError α → Manager.Answer) :
    (Manager.answering answer code).Obeys sections .other
      fun _ _ => True := by
  apply Script.Obeys.bind
  apply (Script.Only.obeys unstoring ?_ ?_).mono
  · exact fun _ _ _ => trivial
  · exact fun request unstored => unstored
  · intro request unstored value
    cases request <;> rfl

theorem obeys_saves (subject : String) (id : SessionId) (kind : SessionKind)
    (states : List SessionState) :
    (saves subject id kind states).Obeys opening .other fun _ _ => True := by
  induction states with
  | nil => trivial
  | cons state states induction =>
      refine ⟨trivial, fun saved => ?_⟩
      cases saved with
      | error error => trivial
      | ok _ => exact induction

theorem obeys (limits : Limits) (call : Call) :
    (program limits call).Obeys opening (opening.start call)
      (opening.ends call) := by
  cases call with
  | runner subject id states =>
      refine ⟨trivial, fun loaded => ?_⟩
      cases loaded with
      | error error => trivial
      | ok state =>
          cases state with
          | none => exact obeys_saves subject id .sub states
          | some state => exact obeys_saves subject id state.kind states
  | manager call =>
      apply Script.obeys_lift
      cases call with
      | open_ subject context agent =>
          apply Script.Obeys.bind
          apply (obeys_open limits.maxOpenPerUser subject context agent).mono
          intro stage result after
          rcases after with ⟨handle, rfl, same⟩ | ⟨error, rfl, same⟩
          · exact .inl ⟨handle, rfl, same⟩
          · exact .inr ⟨error, rfl, same⟩
      | send subject id text token =>
          exact obeys_of_unstoring (Manager.unstoring_send _ _ _ _) _
      | turn turn =>
          exact obeys_of_unstoring (Manager.idling_runTurn _).unstoring _
      | subscribe subject id =>
          exact obeys_of_unstoring (Manager.idling_subscribe _ _).unstoring _
      | cancel subject id =>
          exact obeys_of_unstoring (Manager.plainly_cancel _ _).idling.unstoring
            _
      | resume subject id =>
          exact obeys_of_unstoring (Manager.plainly_resume _ _).idling.unstoring
            _
      | close subject id =>
          exact obeys_of_unstoring (Manager.plainly_close _ _).idling.unstoring
            _

/-- `open_` has saved the session. -/
def Saves (subject : String) (id : SessionId) : Passage parts → Prop
  | ⟨_, _, .section_ (.save other state), .ok ()⟩ =>
      other = subject ∧ state.id = id
  | _ => False

/-- The context of the session has been stamped. -/
def Stamps (subject : String) (id : SessionId) (context : String) :
    Passage parts → Prop
  | ⟨_, _, .section_ (.stampContext other otherId given), .ok ()⟩ =>
      other = subject ∧ otherId = id ∧ given = context
  | _ => False

/-- A context could not be stamped. -/
def FailsToStamp : Passage parts → Prop
  | ⟨_, _, .section_ (.stampContext _ _ _), .error _⟩ => True
  | _ => False

/-- A context was to be stamped. -/
def Stamping : Passage parts → Prop
  | ⟨_, _, .section_ (.stampContext _ _ _), _⟩ => True
  | _ => False

/-- The turn writes nothing. -/
def Harmless : Passage parts → Prop
  | ⟨_, _, .section_ (.save _ _), .error _⟩ => True
  | ⟨_, _, .section_ request, _⟩ => Prepares request
  | _ => False

/-- The turn saves no other session. -/
def OnlySaves (subject : String) (id : SessionId) (turn : Passage parts) :
    Prop :=
  ∀ other otherId, Saves other otherId turn → other = subject ∧ otherId = id

/-- What the turns of an opening tell at a stage. -/
def Tells (subject context : String) :
    Stage → List (Passage parts) → Prop
  | .other, _ => False
  | .clean other given, turns =>
      other = subject ∧ given = context ∧ ∀ turn ∈ turns, Harmless turn
  | .saved other given id, turns =>
      other = subject ∧ given = context ∧
        (∃ turn ∈ turns, Saves subject id turn) ∧
          (∀ turn ∈ turns, ¬ Stamping turn) ∧
            ∀ turn ∈ turns, OnlySaves subject id turn
  | .stamped other given id, turns =>
      other = subject ∧ given = context ∧
        (∃ turn ∈ turns, Stamps subject id context turn) ∧
          (∀ turn ∈ turns, ¬ FailsToStamp turn) ∧
            ∀ turn ∈ turns, OnlySaves subject id turn
  | .unstamped, turns =>
      (∃ turn ∈ turns, FailsToStamp turn) ∧
        (∃ id, ∃ turn ∈ turns, Saves subject id turn) ∧
          ∀ turn ∈ turns, ∀ id given, ¬ Stamps subject id given turn

def tells : Call → Stage → List (Passage parts) → Prop
  | .manager (.open_ subject context _), stage, turns =>
      Tells subject context stage turns
  | _, stage, turns => stage = .other ∧ ∀ turn ∈ turns, ¬ Stamping turn

theorem Harmless.not_stamping {turn : Passage parts}
    (harmless : Harmless turn) : ¬ Stamping turn := by
  intro stamping
  obtain ⟨task, before, request, answer⟩ := turn
  cases request with
  | save subject state => exact harmless
  | section_ request =>
      cases request with
      | stampContext subject id context => exact harmless
      | _ => exact stamping

theorem Harmless.not_saves {turn : Passage parts} (harmless : Harmless turn)
    (subject : String) (id : SessionId) : ¬ Saves subject id turn := by
  intro saves
  obtain ⟨task, before, request, answer⟩ := turn
  cases request with
  | save other state => exact harmless
  | section_ request =>
      cases request with
      | save other state =>
          cases answer with
          | error error => exact saves
          | ok _ => exact harmless
      | _ => exact saves

theorem stamping_of_fails {turn : Passage parts} (fails : FailsToStamp turn) :
    Stamping turn := by
  obtain ⟨task, before, request, answer⟩ := turn
  cases request with
  | save subject state => exact fails
  | section_ request =>
      cases request with
      | stampContext other otherId given => trivial
      | _ => exact fails

theorem stamping_of_stamps {turn : Passage parts} {subject context : String}
    {id : SessionId} (stamps : Stamps subject id context turn) :
    Stamping turn := by
  obtain ⟨task, before, request, answer⟩ := turn
  cases request with
  | save subject state => exact stamps
  | section_ request =>
      cases request with
      | stampContext other otherId given => trivial
      | _ => exact stamps

theorem not_stamping_of_unstored {turn : Passage parts} {request : Section}
    (asked : turn.request = .section_ request) (unstored : request.Unstored) :
    ¬ Stamping turn := by
  intro stamping
  obtain ⟨task, before, given, answer⟩ := turn
  subst asked
  cases request <;> first | exact stamping | exact unstored

theorem onlySaves_of_unstored {turn : Passage parts} {request : Section}
    (asked : turn.request = .section_ request) (unstored : request.Unstored)
    (subject : String) (id : SessionId) : OnlySaves subject id turn := by
  intro other otherId saves
  obtain ⟨task, before, given, answer⟩ := turn
  subst asked
  cases request <;> first | exact saves.elim | exact unstored.elim

theorem adds_open {subject context : String} {stage : Stage}
    {past : List (Passage parts)} {turn : Passage parts}
    (told : Tells subject context stage past)
    (allowed : stage.allows turn.request) :
    Tells subject context (stage.next turn.request turn.answer)
      (past ++ [turn]) := by
  have extends_ : ∀ {p : Passage parts → Prop}, (∃ turn ∈ past, p turn) →
      ∃ other ∈ past ++ [turn], p other :=
    fun found => found.imp fun _ both =>
      ⟨List.mem_append_left _ both.1, both.2⟩
  have last : turn ∈ past ++ [turn] :=
    List.mem_append_right _ List.mem_cons_self
  have all : ∀ {p : Passage parts → Prop}, (∀ turn ∈ past, p turn) → p turn →
      ∀ other ∈ past ++ [turn], p other := by
    intro p old new other member
    rcases List.mem_append.mp member with earlier | latest
    · exact old other earlier
    · exact List.mem_singleton.mp latest ▸ new
  obtain ⟨task, before, request, answer⟩ := turn
  cases stage with
  | other => exact told.elim
  | unstamped => cases request <;> exact allowed.elim
  | clean other given =>
      obtain ⟨rfl, rfl, harmless⟩ := told
      cases request with
      | save subject state => exact allowed.elim
      | section_ request =>
          rcases allowed with prepares | ⟨state, rfl⟩
          · have same : Stage.next (.clean other given) (.section_ request)
                answer = .clean other given := by
              cases request <;> first | rfl | exact prepares.elim
            rw [same]
            refine ⟨rfl, rfl, all harmless ?_⟩
            cases request <;> first | exact prepares | exact prepares.elim
          · cases answer with
            | error error => exact ⟨rfl, rfl, all harmless trivial⟩
            | ok _ =>
                refine ⟨rfl, rfl, ⟨_, last, rfl, rfl⟩, ?_, ?_⟩
                · apply all
                  · exact fun turn member => (harmless turn member).not_stamping
                  · exact fun stamping => stamping
                · apply all
                  · exact fun turn member other id saves =>
                      ((harmless turn member).not_saves other id saves).elim
                  · exact fun other id saves => ⟨saves.1.symm, saves.2.symm⟩
  | saved other given id =>
      obtain ⟨rfl, rfl, saved, unstamped, only⟩ := told
      obtain rfl := allowed
      cases answer with
      | ok _ =>
          refine ⟨rfl, rfl, ⟨_, last, rfl, rfl, rfl⟩, ?_, ?_⟩
          · apply all
            · exact fun turn member fails =>
                unstamped turn member (stamping_of_fails fails)
            · exact fun fails => fails
          · exact all only fun other id saves => saves.elim
      | error error =>
          refine ⟨⟨_, last, trivial⟩, ⟨id, extends_ saved⟩, ?_⟩
          apply all
          · exact fun turn member id given stamps =>
              unstamped turn member (stamping_of_stamps stamps)
          · exact fun id given stamps => stamps
  | stamped other given id =>
      obtain ⟨rfl, rfl, stamped, succeeds, only⟩ := told
      cases request with
      | save subject state => exact allowed.elim
      | section_ request =>
          have same : Stage.next (.stamped other given id) (.section_ request)
              answer = .stamped other given id := by
            cases request <;> rfl
          rw [same]
          refine ⟨rfl, rfl, extends_ stamped, ?_, ?_⟩
          · exact all succeeds fun fails => not_stamping_of_unstored rfl allowed
              (stamping_of_fails fails)
          · exact all only (onlySaves_of_unstored rfl allowed _ _)

theorem adds {call : Call} {stage : Stage} {past : List (Passage parts)}
    {turn : Passage parts} (told : tells call stage past)
    (allowed : stage.allows turn.request) :
    tells call (stage.next turn.request turn.answer) (past ++ [turn]) := by
  have others : (stage = .other ∧ ∀ turn ∈ past, ¬ Stamping turn) →
      stage.next turn.request turn.answer = .other ∧
        ∀ other ∈ past ++ [turn], ¬ Stamping other := by
    intro told
    obtain ⟨rfl, unstamped⟩ := told
    obtain ⟨task, before, request, answer⟩ := turn
    constructor
    · cases request with
      | save subject state => rfl
      | section_ request => cases request <;> rfl
    · intro other member stamping
      rcases List.mem_append.mp member with earlier | latest
      · exact unstamped other earlier stamping
      · obtain rfl := List.mem_singleton.mp latest
        cases request with
        | save subject state => exact stamping
        | section_ request =>
            exact not_stamping_of_unstored rfl allowed stamping
  cases call with
  | runner subject id states => exact others told
  | manager call =>
      cases call with
      | open_ subject context agent => exact adds_open told allowed
      | _ => exact others told

theorem staged {limits : Limits} {first : Stored parts}
    {moves : List (Move Call Conditions)} {task : ℕ} {call : Call}
    {script : Script Request Request.Reply Manager.Answer}
    (found : ((system parts limits).run first moves).tasks[task]? =
      some (call, script)) :
    ∃ stage, tells call stage
        (((system parts limits).run first moves).turns task) ∧
      script.Obeys opening stage (Stage.ends call) := by
  apply System.told opening tells (obeys limits) _ (fun _ _ _ _ => adds) found
  intro call
  cases call with
  | runner subject id states => exact ⟨rfl, fun turn member => by cases member⟩
  | manager call =>
      cases call with
      | open_ subject context agent =>
          exact ⟨rfl, rfl, fun turn member => by cases member⟩
      | _ => exact ⟨rfl, fun turn member => by cases member⟩

/-- The identifier that `open_` saves a session under is that of no row. -/
def isNew : Passage parts → Bool
  | ⟨_, before, .section_ (.save subject state), _⟩ =>
      (before.sessions.find (subject, state.id)).isNone
  | _ => true

abbrev New (turn : Passage parts) : Prop :=
  isNew turn = true

/-- What the turns so far have left in the table. -/
structure Kept (stored : Stored parts) (trace : List (Passage parts)) :
    Prop where
  present : ∀ turn ∈ trace, ∀ subject id, Saves subject id turn →
    ∃ row, stored.sessions.find (subject, id) = some row
  once : ∀ turn ∈ trace, ∀ other ∈ trace, ∀ subject id,
    Saves subject id turn → Saves subject id other → turn.task = other.task
  backed : ∀ turn ∈ trace, ∀ subject id context,
    Stamps subject id context turn →
      ∃ other ∈ trace, Saves subject id other ∧ other.task = turn.task
  contexts : ∀ turn ∈ trace, ∀ subject id context,
    Stamps subject id context turn →
      ∃ row, stored.sessions.find (subject, id) = some row ∧
        row.context = some context
  bare : ∀ turn ∈ trace, ∀ subject id, Saves subject id turn →
    (∀ other ∈ trace, other.task = turn.task →
      ∀ context, ¬ Stamps subject id context other) →
    ∃ row, stored.sessions.find (subject, id) = some row ∧ row.context = none

section Kept

variable {stored after : Stored parts} {trace : List (Passage parts)}
  {turn : Passage parts}

/-- A turn that neither saves nor stamps, after which the rows and their
contexts are there as before. -/
theorem Kept.quiet (kept : Kept stored trace)
    (rows : ∀ key row, stored.sessions.find key = some row →
      ∃ row', after.sessions.find key = some row' ∧ row'.context = row.context)
    (saves : ∀ subject id, ¬ Saves subject id turn)
    (stamps : ∀ subject id context, ¬ Stamps subject id context turn) :
    Kept after (turn :: trace) := by
  constructor
  case present =>
    intro other member subject id saved
    rcases List.mem_cons.mp member with latest | earlier
    · exact absurd saved (latest ▸ saves subject id)
    · obtain ⟨row, found⟩ := kept.present other earlier subject id saved
      obtain ⟨row', found', _⟩ := rows _ row found
      exact ⟨row', found'⟩
  case once =>
    intro one member other memberOther subject id saved savedOther
    rcases List.mem_cons.mp member with latest | earlier
    · exact absurd saved (latest ▸ saves subject id)
    · rcases List.mem_cons.mp memberOther with latest | earlierOther
      · exact absurd savedOther (latest ▸ saves subject id)
      · exact kept.once one earlier other earlierOther subject id saved
          savedOther
  case backed =>
    intro other member subject id context stamped
    rcases List.mem_cons.mp member with latest | earlier
    · exact absurd stamped (latest ▸ stamps subject id context)
    · obtain ⟨past, listed, told⟩ :=
        kept.backed other earlier subject id context stamped
      exact ⟨past, List.mem_cons_of_mem _ listed, told⟩
  case contexts =>
    intro other member subject id context stamped
    rcases List.mem_cons.mp member with latest | earlier
    · exact absurd stamped (latest ▸ stamps subject id context)
    · obtain ⟨row, found, given⟩ :=
        kept.contexts other earlier subject id context stamped
      obtain ⟨row', found', same⟩ := rows _ row found
      exact ⟨row', found', same.trans given⟩
  case bare =>
    intro other member subject id saved unstamped
    rcases List.mem_cons.mp member with latest | earlier
    · exact absurd saved (latest ▸ saves subject id)
    · obtain ⟨row, found, bare⟩ := kept.bare other earlier subject id saved
        fun past listed => unstamped past (List.mem_cons_of_mem _ listed)
      obtain ⟨row', found', same⟩ := rows _ row found
      exact ⟨row', found', same.trans bare⟩

/-- A save of `open_` under a new identifier. -/
theorem Kept.saved {task : ℕ} {subject : String} {state : SessionState}
    (kept : Kept stored trace)
    (new : stored.sessions.find (subject, state.id) = none) (now : ℕ) :
    Kept { stored with
        sessions := stored.sessions.save subject state.id state.kind state now }
      (⟨task, stored, .section_ (.save subject state), .ok ()⟩ :: trace) := by
  have rows : ∀ key row, stored.sessions.find key = some row →
      ∃ row', (stored.sessions.save subject state.id state.kind state
        now).find key = some row' ∧ row'.context = row.context :=
    fun key row found => find_save state.kind state now found
  have unsaved : ∀ other ∈ trace, ¬ Saves subject state.id other := by
    intro other member saved
    obtain ⟨row, found⟩ := kept.present other member subject state.id saved
    rw [new] at found
    cases found
  constructor
  case present =>
    intro other member given id saved
    rcases List.mem_cons.mp member with latest | earlier
    · subst latest
      obtain ⟨rfl, rfl⟩ := saved
      exact find_save_self _ _ _ _ _ _
    · obtain ⟨row, found⟩ := kept.present other earlier given id saved
      obtain ⟨row', found', _⟩ := rows _ row found
      exact ⟨row', found'⟩
  case once =>
    intro one member other memberOther given id saved savedOther
    rcases List.mem_cons.mp member with latest | earlier
    · subst latest
      obtain ⟨rfl, rfl⟩ := saved
      rcases List.mem_cons.mp memberOther with latest | earlierOther
      · exact latest ▸ rfl
      · exact absurd savedOther (unsaved other earlierOther)
    · rcases List.mem_cons.mp memberOther with latest | earlierOther
      · subst latest
        obtain ⟨rfl, rfl⟩ := savedOther
        exact absurd saved (unsaved one earlier)
      · exact kept.once one earlier other earlierOther given id saved
          savedOther
  case backed =>
    intro other member given id context stamped
    rcases List.mem_cons.mp member with latest | earlier
    · subst latest
      exact stamped.elim
    · obtain ⟨past, listed, told⟩ :=
        kept.backed other earlier given id context stamped
      exact ⟨past, List.mem_cons_of_mem _ listed, told⟩
  case contexts =>
    intro other member given id context stamped
    rcases List.mem_cons.mp member with latest | earlier
    · subst latest
      exact stamped.elim
    · obtain ⟨row, found, same⟩ :=
        kept.contexts other earlier given id context stamped
      obtain ⟨row', found', kept⟩ := rows _ row found
      exact ⟨row', found', kept.trans same⟩
  case bare =>
    intro other member given id saved unstamped
    rcases List.mem_cons.mp member with latest | earlier
    · subst latest
      obtain ⟨rfl, rfl⟩ := saved
      exact find_save_new _ _ _ new
    · obtain ⟨row, found, bare⟩ := kept.bare other earlier given id saved
        fun past listed => unstamped past (List.mem_cons_of_mem _ listed)
      obtain ⟨row', found', same⟩ := rows _ row found
      exact ⟨row', found', same.trans bare⟩

/-- A stamp, by the task that saved the session and has stamped nothing. -/
theorem Kept.stamped {task : ℕ} {subject context : String} {id : SessionId}
    (kept : Kept stored trace)
    (saved : ∃ other ∈ trace, Saves subject id other ∧ other.task = task)
    (unstamped : ∀ other ∈ trace, other.task = task → ¬ Stamping other) :
    Kept { stored with
        sessions := stored.sessions.stampContext subject id context }
      (⟨task, stored, .section_ (.stampContext subject id context), .ok ()⟩ ::
        trace) := by
  obtain ⟨own, listed, saves, mine⟩ := saved
  have rows : ∀ key row, key ≠ (subject, id) →
      stored.sessions.find key = some row →
        (stored.sessions.stampContext subject id context).find key =
          some row := by
    intro key row different found
    rw [Sessions.stampContext, KeyedTable.find_modify_of_ne different, found]
  have here : ∃ row, (stored.sessions.stampContext subject id context).find
      (subject, id) = some row ∧ row.context = some context := by
    obtain ⟨row, found⟩ := kept.present own listed subject id saves
    rw [Sessions.stampContext, KeyedTable.find_modify_self, found]
    exact ⟨_, rfl, rfl⟩
  constructor
  case present =>
    intro other member given otherId savedOther
    rcases List.mem_cons.mp member with latest | earlier
    · subst latest
      exact savedOther.elim
    · by_cases same : (given, otherId) = (subject, id)
      · obtain ⟨row, found, _⟩ := here
        exact ⟨row, same ▸ found⟩
      · obtain ⟨row, found⟩ :=
          kept.present other earlier given otherId savedOther
        exact ⟨row, rows _ row same found⟩
  case once =>
    intro one member other memberOther given otherId savedOne savedOther
    rcases List.mem_cons.mp member with latest | earlier
    · subst latest
      exact savedOne.elim
    · rcases List.mem_cons.mp memberOther with latest | earlierOther
      · subst latest
        exact savedOther.elim
      · exact kept.once one earlier other earlierOther given otherId savedOne
          savedOther
  case backed =>
    intro other member given otherId told stamped
    rcases List.mem_cons.mp member with latest | earlier
    · subst latest
      obtain ⟨rfl, rfl, rfl⟩ := stamped
      exact ⟨own, List.mem_cons_of_mem _ listed, saves, mine⟩
    · obtain ⟨past, older, both⟩ :=
        kept.backed other earlier given otherId told stamped
      exact ⟨past, List.mem_cons_of_mem _ older, both⟩
  case contexts =>
    intro other member given otherId told stamped
    rcases List.mem_cons.mp member with latest | earlier
    · subst latest
      obtain ⟨rfl, rfl, rfl⟩ := stamped
      exact here
    · by_cases same : (given, otherId) = (subject, id)
      · obtain ⟨rfl, rfl⟩ := Prod.mk.inj same
        obtain ⟨past, older, pastSaves, pastTask⟩ :=
          kept.backed other earlier given otherId told stamped
        have sameTask := kept.once past older own listed given otherId
          pastSaves saves
        exact absurd (stamping_of_stamps stamped) (unstamped other earlier
          (pastTask.symm.trans (sameTask.trans mine)))
      · obtain ⟨row, found, context⟩ :=
          kept.contexts other earlier given otherId told stamped
        exact ⟨row, rows _ row same found, context⟩
  case bare =>
    intro other member given otherId savedOther bare
    rcases List.mem_cons.mp member with latest | earlier
    · subst latest
      exact savedOther.elim
    · have different : (given, otherId) ≠ (subject, id) := by
        intro same
        obtain ⟨rfl, rfl⟩ := Prod.mk.inj same
        have sameTask := kept.once other earlier own listed given otherId
          savedOther saves
        exact bare _ List.mem_cons_self (sameTask.trans mine).symm context
          ⟨rfl, rfl, rfl⟩
      obtain ⟨row, found, none⟩ :=
        kept.bare other earlier given otherId savedOther fun past older =>
          bare past (List.mem_cons_of_mem _ older)
      exact ⟨row, rows _ row different found, none⟩

end Kept

section Run

variable {limits : Limits} {admins : String → Bool} {hub : Hub parts.channels}
  {moves : List (Move Call Conditions)}

/-- A task that is about to stamp is an opening that has saved the session. -/
theorem staged_stamp {task : ℕ} {call : Call} {subject context : String}
    {id : SessionId}
    {rest : Except String Unit → Script Request Request.Reply Manager.Answer}
    {first : Stored parts}
    (found : ((system parts limits).run first moves).tasks[task]? =
      some (call, .call (.section_ (.stampContext subject id context)) rest)) :
    ∃ agent, call = .manager (.open_ subject context agent) ∧
      (∃ turn ∈ ((system parts limits).run first moves).turns task,
        Saves subject id turn) ∧
      ∀ turn ∈ ((system parts limits).run first moves).turns task,
        ¬ Stamping turn := by
  obtain ⟨stage, told, allowed, _⟩ := staged found
  have others : stage = .other → False := by
    intro same
    subst same
    exact allowed
  cases call with
  | runner other otherId states => exact (others told.1).elim
  | manager call =>
      cases call with
      | open_ other given agent =>
          cases stage with
          | other => exact told.elim
          | unstamped => exact allowed.elim
          | stamped _ _ _ => exact allowed.elim
          | clean _ _ =>
              rcases allowed with prepares | ⟨state, same⟩
              · exact prepares.elim
              · cases same
          | saved _ _ savedId =>
              obtain ⟨rfl, rfl, saved, unstamped, _⟩ := told
              cases allowed
              exact ⟨agent, rfl, saved, unstamped⟩
      | _ => exact (others told.1).elim

/-- A stamp that failed is one of an opening that has saved the session. -/
theorem staged_failure {first : Stored parts} {turn : Passage parts}
    (member : turn ∈ ((system parts limits).run first moves).trace)
    (fails : FailsToStamp turn) :
    ∃ subject context agent script,
      ((system parts limits).run first moves).tasks[turn.task]? =
        some (.manager (.open_ subject context agent), script) ∧
      (∃ id, ∃ other ∈ ((system parts limits).run first moves).turns turn.task,
        Saves subject id other) ∧
      ∀ other ∈ ((system parts limits).run first moves).turns turn.task,
        ∀ id given, ¬ Stamps subject id given other := by
  have listed := Pool.mem_turns.mpr ⟨member, rfl⟩
  have stamping := stamping_of_fails fails
  obtain ⟨⟨call, script⟩, found⟩ : ∃ task,
      ((system parts limits).run first moves).tasks[turn.task]? = some task :=
    ⟨_, List.getElem?_eq_getElem (System.task_lt_of_trace moves turn member)⟩
  obtain ⟨stage, told, _⟩ := staged found
  cases call with
  | runner subject id states => exact absurd stamping (told.2 turn listed)
  | manager call =>
      cases call with
      | open_ subject context agent =>
          cases stage with
          | other => exact told.elim
          | clean other given =>
              exact absurd stamping (told.2.2 turn listed).not_stamping
          | saved other given id =>
              exact absurd stamping (told.2.2.2.1 turn listed)
          | stamped other given id =>
              exact absurd fails (told.2.2.2.1 turn listed)
          | unstamped =>
              exact ⟨subject, context, agent, script, found, told.2⟩
      | _ => exact absurd stamping (told.2 turn listed)

theorem kept_of_run
    (new : ∀ turn ∈ ((system parts limits).run
      (Stored.new parts limits admins hub) moves).trace, New turn) :
    Kept ((system parts limits).run (Stored.new parts limits admins hub)
        moves).shared
      ((system parts limits).run (Stored.new parts limits admins hub)
        moves).trace := by
  revert new
  apply System.run_induction fun pool => (∀ turn ∈ pool.trace, New turn) →
    Kept pool.shared pool.trace
  case begins =>
    intro _
    constructor
    all_goals
      intro turn member
      cases member
  case starts =>
    intro moves call kept
    exact kept
  case steps =>
    intro moves task conditions call request rest found ready before new
    have kept := before fun turn member => new turn (List.mem_cons_of_mem _ member)
    have latest := new _ List.mem_cons_self
    dsimp only at kept latest ⊢
    generalize answered : (system parts limits).exec conditions
      ((system parts limits).run (Stored.new parts limits admins hub)
        moves).shared request = result at latest ⊢
    cases request with
    | save subject state =>
        have rows : ∀ key row, ((system parts limits).run
            (Stored.new parts limits admins hub) moves).shared.sessions.find
              key = some row → ∃ row', result.2.sessions.find key =
                some row' ∧ row'.context = row.context := by
          intro key row listed
          rw [← answered]
          show ∃ row', (perform conditions _
            (.save subject state)).2.sessions.find key = some row' ∧ _
          unfold perform
          cases conditions.save with
          | error error => exact ⟨row, listed, rfl⟩
          | ok _ => exact find_save _ _ _ listed
        exact kept.quiet rows (fun _ _ saved => saved)
          fun _ _ _ stamped => stamped
    | section_ request =>
        by_cases unstored : request.Unstored
        · have same : result.2.sessions = ((system parts limits).run
              (Stored.new parts limits admins hub) moves).shared.sessions := by
            rw [← answered]
            exact sessions_of_unstored unstored conditions _
          apply kept.quiet
          · intro key row listed
            exact ⟨row, same ▸ listed, rfl⟩
          · intro subject id saved
            cases request <;> first | exact saved | exact unstored
          · intro subject id context stamped
            cases request <;> first | exact stamped | exact unstored
        cases request with
        | save subject state =>
            subst answered
            show Kept (perform conditions _ (.save subject state)).2
              (⟨task, _, .section_ (.save subject state),
                (perform conditions _ (.save subject state)).1⟩ :: _)
            unfold perform
            cases conditions.save with
            | error error =>
                exact kept.quiet (fun key row listed => ⟨row, listed, rfl⟩)
                  (fun _ _ saved => saved) fun _ _ _ stamped => stamped
            | ok _ =>
                exact kept.saved (Option.isNone_iff_eq_none.mp latest)
                  conditions.now
        | stampContext subject id context =>
            obtain ⟨agent, rfl, saved, unstamped⟩ := staged_stamp found
            subst answered
            show Kept (perform conditions _ (.stampContext subject id context)).2
              (⟨task, _, .section_ (.stampContext subject id context),
                (perform conditions _ (.stampContext subject id context)).1⟩ ::
                _)
            unfold perform
            cases conditions.stampContext with
            | error error =>
                exact kept.quiet (fun key row listed => ⟨row, listed, rfl⟩)
                  (fun _ _ saved => saved) fun _ _ _ stamped => stamped
            | ok _ =>
                apply kept.stamped
                · obtain ⟨turn, listed, saves⟩ := saved
                  obtain ⟨member, mine⟩ := Pool.mem_turns.mp listed
                  exact ⟨turn, member, saves, mine⟩
                · intro turn member mine
                  exact unstamped turn (Pool.mem_turns.mpr ⟨member, mine⟩)
        | _ => exact absurd trivial unstored

end Run

/-- The stored sessions, the registrations of the hub and the sessions in
memory are the same. -/
structure Untouched (before after : Stored parts) : Prop where
  sessions : after.sessions = before.sessions
  hub : after.manager.hub = before.manager.hub
  table : after.manager.table = before.manager.table

/-- An opening that has failed has not touched anything in any of its steps;
the session of one that has succeeded, and each row that one has written, has
the context that it was given. -/
structure Atomic (limits : Limits) (first : Stored parts)
    (moves : List (Move Call Conditions)) : Prop where
  unchanged : ∀ (task : ℕ) subject context agent error,
    ((system parts limits).run first moves).tasks[task]? =
      some (.manager (.open_ subject context agent),
        .done (.opened (.error error))) →
    ∀ earlier conditions, earlier ++ [.step task conditions] <+: moves →
      Untouched ((system parts limits).run first earlier).shared
        ((system parts limits).run first
          (earlier ++ [.step task conditions])).shared
  opened : ∀ (task : ℕ) subject context agent handle,
    ((system parts limits).run first moves).tasks[task]? =
      some (.manager (.open_ subject context agent),
        .done (.opened (.ok handle))) →
    ∃ row, ((system parts limits).run first moves).shared.sessions.find
        (subject, handle.id) = some row ∧ row.context = some context
  kept : ∀ (task : ℕ) subject context agent script,
    ((system parts limits).run first moves).tasks[task]? =
      some (.manager (.open_ subject context agent), script) →
    ∀ turn ∈ ((system parts limits).run first moves).turns task,
      ∀ owner id, Saves owner id turn →
        ∃ row, ((system parts limits).run first moves).shared.sessions.find
          (owner, id) = some row ∧ row.context = some context

/-- Every context that was to be stamped has been, and no opening stands before
its stamp. -/
structure Settled (pool : Pool Call Request Request.Reply (Stored parts)
    Manager.Answer) : Prop where
  stamped : ∀ turn ∈ pool.trace, ¬ FailsToStamp turn
  reached : ∀ (task : ℕ) call subject id context rest,
    pool.tasks[task]? ≠
      some (call, .call (.section_ (.stampContext subject id context)) rest)

section Atomic

variable {limits : Limits} {admins : String → Bool} {hub : Hub parts.channels}
  {moves : List (Move Call Conditions)}

theorem Untouched.refl (stored : Stored parts) : Untouched stored stored :=
  ⟨rfl, rfl, rfl⟩

/-- A turn that writes nothing touches nothing. -/
theorem untouched_of_harmless (task : ℕ) {stored : Stored parts}
    {request : Request} {conditions : Conditions}
    (harmless : Harmless (⟨task, stored, request,
      (exec conditions stored request).1⟩ : Passage parts)) :
    Untouched stored (exec conditions stored request).2 := by
  cases request with
  | save subject state => exact harmless.elim
  | section_ request =>
      cases request with
      | save subject state =>
          change Harmless (⟨task, stored, .section_ (.save subject state),
            (stored.perform conditions (.save subject state)).1⟩ :
              Passage parts) at harmless
          show Untouched stored
            (stored.perform conditions (.save subject state)).2
          unfold perform at harmless ⊢
          cases saved : conditions.save with
          | error error => exact .refl stored
          | ok _ =>
              rw [saved] at harmless
              exact harmless.elim
      | load subject id =>
          show Untouched stored (stored.perform conditions (.load subject id)).2
          unfold perform
          cases conditions.session <;> exact .refl stored
      | _ => first | exact harmless.elim | exact .refl stored

/-- The steps of an opening that has failed are harmless when its stamp has
not. -/
theorem untouched_of_error {first : Stored parts} {task : ℕ}
    {subject context : String} {agent : Option String} {error : LymailleError}
    (stamped : ∀ turn ∈ ((system parts limits).run first moves).trace,
      ¬ FailsToStamp turn)
    (ended : ((system parts limits).run first moves).tasks[task]? =
      some (.manager (.open_ subject context agent),
        .done (.opened (.error error))))
    {earlier : List (Move Call Conditions)} {conditions : Conditions}
    (begins : earlier ++ [.step task conditions] <+: moves) :
    Untouched ((system parts limits).run first earlier).shared
      ((system parts limits).run first
        (earlier ++ [.step task conditions])).shared := by
  obtain ⟨stage, told, ends⟩ := staged ended
  have ends : Stage.ends (.manager (.open_ subject context agent)) stage
    (.opened (.error error)) := ends
  rcases ends with ⟨given, impossible, _⟩ | ⟨cause, _, rfl | rfl⟩
  · cases impossible
  · obtain ⟨_, _, harmless⟩ := told
    rcases System.move_cases (system parts limits) first earlier
        (.step task conditions) with same | moved
    · rw [same.1]
      exact .refl _
    · obtain ⟨mover, given, request, same, state, grown⟩ := moved
      cases same
      rw [state]
      apply untouched_of_harmless task
      apply harmless
      apply Pool.mem_turns.mpr
      refine ⟨?_, rfl⟩
      apply (System.trace_suffix (system parts limits) first begins).mem
      rw [grown]
      exact List.mem_cons_self
  · obtain ⟨⟨turn, listed, fails⟩, _⟩ := told
    exact absurd fails (stamped turn (Pool.mem_turns.mp listed).1)

/-- When no stamp has failed or is still to come, what an opening has saved has
been stamped with its context. -/
theorem stamps_of_saves {first : Stored parts} {task : ℕ}
    {subject context : String} {agent : Option String}
    {script : Script Request Request.Reply Manager.Answer}
    (settled : Settled ((system parts limits).run first moves))
    (found : ((system parts limits).run first moves).tasks[task]? =
      some (.manager (.open_ subject context agent), script))
    {turn : Passage parts}
    (listed : turn ∈ ((system parts limits).run first moves).turns task)
    {owner : String} {id : SessionId} (saves : Saves owner id turn) :
    ∃ stamp ∈ ((system parts limits).run first moves).trace,
      Stamps owner id context stamp := by
  obtain ⟨stage, told, obeys⟩ := staged found
  cases stage with
  | other => exact told.elim
  | clean other given =>
      exact absurd saves ((told.2.2 turn listed).not_saves owner id)
  | saved other given savedId =>
      cases script with
      | done answer =>
          rcases obeys with ⟨_, _, impossible⟩ | ⟨_, _, impossible | impossible⟩
            <;> cases impossible
      | call request rest =>
          obtain ⟨allowed, _⟩ := obeys
          cases allowed
          exact absurd found (settled.reached task _ _ _ _ rest)
  | stamped other given savedId =>
      obtain ⟨rfl, rfl, ⟨stamp, stamping, stamps⟩, _, only⟩ := told
      obtain ⟨rfl, rfl⟩ := only turn listed owner id saves
      exact ⟨stamp, (Pool.mem_turns.mp stamping).1, stamps⟩
  | unstamped =>
      obtain ⟨⟨failed, stamping, fails⟩, _⟩ := told
      exact absurd fails (settled.stamped failed (Pool.mem_turns.mp stamping).1)

theorem atomic_of_settled
    (new : ∀ turn ∈ ((system parts limits).run
      (Stored.new parts limits admins hub) moves).trace, New turn)
    (settled : Settled ((system parts limits).run
      (Stored.new parts limits admins hub) moves)) :
    Atomic limits (Stored.new parts limits admins hub) moves := by
  have contexts := (kept_of_run new).contexts
  constructor
  case unchanged =>
    intro task subject context agent error ended earlier conditions begins
    exact untouched_of_error settled.stamped ended begins
  case opened =>
    intro task subject context agent handle ended
    obtain ⟨stage, told, ends⟩ := staged ended
    have ends : Stage.ends (.manager (.open_ subject context agent)) stage
      (.opened (.ok handle)) := ends
    rcases ends with ⟨given, same, rfl⟩ | ⟨error, impossible, _⟩
    · cases same
      obtain ⟨_, _, ⟨turn, listed, stamps⟩, _⟩ := told
      exact contexts turn (Pool.mem_turns.mp listed).1 subject handle.id context
        stamps
    · cases impossible
  case kept =>
    intro task subject context agent script found turn listed owner id saves
    obtain ⟨stamp, stamping, stamps⟩ :=
      stamps_of_saves settled found listed saves
    exact contexts stamp stamping owner id context stamps

/-- A row that an opening has saved and not stamped has no context. -/
theorem not_atomic_of_unstamped
    (new : ∀ turn ∈ ((system parts limits).run
      (Stored.new parts limits admins hub) moves).trace, New turn)
    {task : ℕ} {subject context : String} {agent : Option String}
    {script : Script Request Request.Reply Manager.Answer}
    (found : ((system parts limits).run (Stored.new parts limits admins hub)
      moves).tasks[task]? =
        some (.manager (.open_ subject context agent), script))
    {id : SessionId}
    (saved : ∃ turn ∈ ((system parts limits).run
      (Stored.new parts limits admins hub) moves).turns task,
        Saves subject id turn)
    (unstamped : ∀ turn ∈ ((system parts limits).run
      (Stored.new parts limits admins hub) moves).turns task,
        ∀ given, ¬ Stamps subject id given turn) :
    ¬ Atomic limits (Stored.new parts limits admins hub) moves := by
  intro atomic
  obtain ⟨turn, listed, saves⟩ := saved
  obtain ⟨member, mine⟩ := Pool.mem_turns.mp listed
  obtain ⟨row, present, given⟩ :=
    atomic.kept task subject context agent script found turn listed subject id
      saves
  obtain ⟨other, same, bare⟩ := (kept_of_run new).bare turn member subject id
    saves fun past older own =>
      unstamped past (Pool.mem_turns.mpr ⟨older, own.trans mine⟩)
  rw [present] at same
  cases same
  rw [bare] at given
  cases given

end Atomic

/-- When the identifiers of the sessions opened are new, openings are all or
nothing in a state, and their sessions keep their contexts, exactly when each
context that was to be stamped was and no opening stands before its stamp. -/
theorem atomic_iff (parts : Parts) (limits : Limits) (admins : String → Bool)
    (hub : Hub parts.channels) (moves : List (Move Call Conditions))
    (new : ∀ turn ∈ ((system parts limits).run
      (Stored.new parts limits admins hub) moves).trace, New turn) :
    Atomic limits (Stored.new parts limits admins hub) moves ↔
    Settled ((system parts limits).run (Stored.new parts limits admins hub)
      moves) := by
  constructor
  · intro atomic
    constructor
    case stamped =>
      intro turn member fails
      obtain ⟨subject, context, agent, script, found, ⟨id, saved⟩, unstamped⟩ :=
        staged_failure member fails
      exact not_atomic_of_unstamped new found saved
        (fun turn listed => unstamped turn listed id) atomic
    case reached =>
      intro task call subject id context rest found
      obtain ⟨agent, rfl, saved, unstamped⟩ := staged_stamp found
      exact not_atomic_of_unstamped new found saved
        (fun turn listed given stamps =>
          unstamped turn listed (stamping_of_stamps stamps)) atomic
  · exact atomic_of_settled new

/-- An opening up to its first write. -/
def prepared : List (Move Call Conditions) :=
  .start (.manager (.open_ "alice" "context" none)) ::
    List.replicate 8 (.step 0 { uuid := "s1" })

/-- The opening to its end. -/
def opened : List (Move Call Conditions) :=
  prepared ++ List.replicate 5 (.step 0 { uuid := "s1" })

theorem atomic_opened :
    Atomic ⟨1, 1000⟩ (Stored.new plainParts ⟨1, 1000⟩ (fun _ => false)
        (Hub.new _ false 256)) opened ↔
    Settled ((system plainParts ⟨1, 1000⟩).run (Stored.new plainParts
      ⟨1, 1000⟩ (fun _ => false) (Hub.new _ false 256)) opened) :=
  atomic_iff plainParts ⟨1, 1000⟩ (fun _ => false) (Hub.new _ false 256) opened
    (by decide +kernel)

/-- The context cannot be stamped; the session stays, without a context. -/
theorem unstamped_session_left :
    ¬ ∀ moves : List (Move Call Conditions),
      (∀ turn ∈ ((system plainParts ⟨1, 1000⟩).run (Stored.new plainParts
        ⟨1, 1000⟩ (fun _ => false) (Hub.new _ false 256)) moves).trace,
          New turn) →
      Atomic ⟨1, 1000⟩ (Stored.new plainParts ⟨1, 1000⟩ (fun _ => false)
        (Hub.new _ false 256)) moves := by
  intro all
  have atomic := all (prepared ++
      [.step 0 {}, .step 0 { stampContext := .error "connection lost" }])
    (by decide +kernel)
  have untouched := atomic.unchanged 0 "alice" "context" none
    (.store "connection lost") rfl prepared {} ⟨[_], rfl⟩
  exact absurd (congrArg (fun sessions => sessions.entries.length)
    untouched.sessions) (by decide +kernel)

end MiryadCore.Interactive.Stored
