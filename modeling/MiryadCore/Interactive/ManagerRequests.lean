import MiryadCore.Interactive.Manager

/-!
# The sections of the parts of the manager

A section is silent when it neither gives nor takes back a permit, starts no
turn, and does not touch the channel of a session.  The calls make silent
sections only, apart from `send`, `subscribe` and the turns.
-/

namespace MiryadCore.Interactive.Manager

/-- The sections that leave the gate and the channels to the others. -/
def Section.Silent : Section → Prop
  | .tryBegin _ | .spawn _ | .release _ _ => False
  | .hub (.slot _) | .hub (.subscribe _ _) | .hub (.diffuse _ _)
  | .hub (.recv _) | .hub (.unsubscribe _) => False
  | _ => True

/-- The code makes silent sections only. -/
abbrev Quietly {α : Type} (code : Code α) : Prop :=
  Query.Only Section.Silent code

theorem quietly_get {request : Section} (silent : request.Silent) :
    Quietly (get request) :=
  ⟨silent, fun _ => trivial⟩

theorem quietly_demand {α : Type} {request : Section} (silent : request.Silent)
    (translate : request.Reply → Except LymailleError α) :
    Quietly (demand request translate) :=
  ⟨silent, fun _ => trivial⟩

/-- The sections that ask the database or the host. -/
def Section.Asks : Section → Prop
  | .account _ | .admin _ | .load _ _ | .hostContext _ _ | .agent _ _
  | .visibleContextType _ _ _ | .contextType _ | .resolveStart _ _
  | .activeToolset _ _ => True
  | _ => False

/-- The refusal of `open_` for want of room. -/
def tooMany : LymailleError := .forbidden "too many open sessions"

/-- The code only asks, and does not refuse for want of room. -/
abbrev Asking {α : Type} (code : Code α) : Prop :=
  Query.Within Section.Asks (fun error => error ≠ tooMany) code

theorem Asking.quietly {α : Type} {code : Code α} (asking : Asking code) :
    Quietly code := by
  apply asking.only.mono
  intro request asks
  cases request <;> first | exact asks.elim | trivial

theorem asking_demand {α : Type} {request : Section} (asks : request.Asks)
    {translate : request.Reply → Except LymailleError α}
    (fails : ∀ answer error, translate answer = .error error →
      error ≠ tooMany) :
    Asking (demand request translate) :=
  ⟨asks, fun answer => Query.Within.ofExcept (fails answer)⟩

theorem mapError_ne {α ε : Type} {translate : ε → LymailleError}
    (apart : ∀ cause, translate cause ≠ tooMany) (result : Except ε α)
    (error : LymailleError) (failed : result.mapError translate = .error error) :
    error ≠ tooMany := by
  cases result with
  | ok value => cases failed
  | error cause =>
      cases failed
      exact apart cause

theorem store_ne (text : String) : LymailleError.store text ≠ tooMany :=
  fun same => by cases same

theorem fromSession_ne (cause : SessionError) :
    fromSession cause ≠ tooMany := by
  cases cause <;> exact fun same => by cases same

theorem fromCatalog_ne (cause : CatalogError) : fromCatalog cause ≠ tooMany := by
  cases cause <;> exact fun same => by cases same

theorem asking_principal (subject : String) : Asking (principal subject) := by
  have account : (Section.account subject).Asks := trivial
  apply Query.Within.bind (asking_demand account (mapError_ne store_ne))
  intro account
  cases account with
  | none => exact .fail fun same => absurd same (by decide)
  | some userId =>
      have admin : (Section.admin subject).Asks := trivial
      apply Query.Within.bind (asking_demand admin (mapError_ne store_ne))
      intro isAdmin
      exact .pure _

theorem asking_readable (subject : String) (id : SessionId) :
    Asking (readable subject id) := by
  have loads : (Section.load subject id).Asks := trivial
  apply Query.Within.bind (asking_demand loads (mapError_ne fromSession_ne))
  intro state
  cases state with
  | none => exact .fail fun same => by cases same
  | some state => exact .pure _

theorem asking_hostContextExists (caller : CallerPrincipal)
    (context : String) : Asking (hostContextExists caller context) := by
  have asks : (Section.hostContext context caller).Asks := trivial
  apply Query.Within.call asks
  intro found
  cases found with
  | false => exact .fail fun same => by cases same
  | true => exact .pure ()

theorem asking_resolveAgent (subject agentId : String) :
    Asking (resolveAgent subject agentId) := by
  have agent : (Section.agent subject agentId).Asks := trivial
  apply Query.Within.bind (asking_demand agent (mapError_ne fromCatalog_ne))
  intro agent
  cases agent with
  | none => exact .fail fun same => by cases same
  | some definition => exact .pure _

theorem asking_visibleContextType (caller : CallerPrincipal) (kind : IdKind)
    (context : String) : Asking (visibleContextType caller kind context) := by
  have visible :
      (Section.visibleContextType kind context caller.userId).Asks := trivial
  apply Query.Within.bind (asking_demand visible (mapError_ne store_ne))
  intro row
  cases row with
  | none => exact .fail fun same => by cases same
  | some reference => exact .pure _

theorem asking_definitionOf (subject agentId : String) (agent : Option String)
    (start : Option AgentDefinition) :
    Asking (definitionOf subject agentId agent start) := by
  unfold definitionOf
  split
  next => exact asking_resolveAgent subject agentId
  next => exact .pure _
  next => exact .fail fun same => by cases same

theorem sessionKindOf_ne (type : ContextType) (definition : AgentDefinition)
    (error : LymailleError)
    (failed : sessionKindOf type definition = .error error) :
    error ≠ tooMany := by
  have refused : error = .forbidden AGENT_NOT_ALLOWED := by
    unfold sessionKindOf at failed
    split at failed
    all_goals
      split at failed
      all_goals first | cases failed; rfl | cases failed
  rw [refused]
  exact fun same => absurd same (by decide)

theorem asking_resolveTypeStart (caller : CallerPrincipal) (kind : IdKind)
    (context : String) (agent : Option String) :
    Asking (resolveTypeStart caller kind context agent) := by
  apply Query.Within.bind (asking_visibleContextType caller kind context)
  intro reference
  cases reference with
  | none => exact .fail fun same => by cases same
  | some reference =>
  have typed : (Section.contextType reference).Asks := trivial
  apply Query.Within.bind (asking_demand typed (mapError_ne store_ne))
  intro found
  cases found with
  | none => exact .fail fun same => by cases same
  | some found =>
  have starts : (Section.resolveStart caller.subject found.1).Asks := trivial
  apply Query.Within.bind (asking_demand starts (mapError_ne fromCatalog_ne))
  intro start
  split
  next => exact .fail fun same => by cases same
  next agentId _ =>
    split
    next => exact .fail fun same => absurd same (by decide)
    next =>
      apply Query.Within.bind
        (asking_definitionOf caller.subject agentId agent start)
      intro definition
      apply Query.Within.bind (.ofExcept (sessionKindOf_ne found.1 definition))
      intro kind
      exact .pure _

theorem classify_ne (id : String) (error : LymailleError)
    (failed : classify id = .error error) : error ≠ tooMany := by
  unfold classify at failed
  split at failed
  next =>
    cases failed
    exact fun same => by cases same
  next =>
    split at failed
    all_goals
      cases failed
    all_goals exact fun same => by cases same

theorem asking_resolveStart (caller : CallerPrincipal) (context : String)
    (agent : Option String) : Asking (resolveStart caller context agent) := by
  apply Query.Within.bind (.ofExcept (classify_ne context))
  intro kind
  split
  next =>
    cases agent with
    | none => exact .fail fun same => by cases same
    | some agent =>
        apply Query.Within.bind (asking_hostContextExists caller context)
        intro _
        apply Query.Within.bind (asking_resolveAgent caller.subject agent)
        intro definition
        split
        next => exact .fail fun same => by cases same
        next => exact .pure _
  next => exact asking_resolveTypeStart caller _ context agent

theorem asking_toolsetVersions (subject : String) (names : List String) :
    Asking (toolsetVersions subject names) := by
  induction names with
  | nil => exact .pure []
  | cons name names induction =>
      have active : (Section.activeToolset subject name).Asks := trivial
      apply Query.Within.bind
        (asking_demand active (mapError_ne fromCatalog_ne))
      intro toolset
      cases toolset with
      | none => exact .fail fun same => by cases same
      | some version =>
          apply Query.Within.bind induction
          intro versions
          exact .pure _

/-- The sections that leave the stored sessions as they are. -/
def Section.Unstored : Section → Prop
  | .save _ _ | .stampContext _ _ _ => False
  | _ => True

/-- The sections that neither write a stored session nor start a turn. -/
def Section.Idle : Section → Prop
  | .save _ _ | .stampContext _ _ _ | .spawn _ => False
  | _ => True

/-- The silent sections that leave the stored sessions as they are. -/
def Section.Plain (request : Section) : Prop :=
  request.Silent ∧ request.Unstored

abbrev Unstoring {α : Type} (code : Code α) : Prop :=
  Query.Only Section.Unstored code

abbrev Idling {α : Type} (code : Code α) : Prop :=
  Query.Only Section.Idle code

abbrev Plainly {α : Type} (code : Code α) : Prop :=
  Query.Only Section.Plain code

theorem Plainly.quietly {α : Type} {code : Code α} (plainly : Plainly code) :
    Quietly code :=
  plainly.mono fun _ => And.left

theorem Idling.unstoring {α : Type} {code : Code α} (idling : Idling code) :
    Unstoring code := by
  apply idling.mono
  intro request idle
  cases request <;> first | exact idle.elim | trivial

theorem Plainly.idling {α : Type} {code : Code α} (plainly : Plainly code) :
    Idling code := by
  apply plainly.mono
  intro request plain
  cases request <;>
    first | exact plain.1.elim | exact plain.2.elim | trivial

theorem Asking.plainly {α : Type} {code : Code α} (asking : Asking code) :
    Plainly code := by
  apply asking.only.mono
  intro request asks
  cases request <;> first | exact asks.elim | exact ⟨trivial, trivial⟩

theorem plainly_get {request : Section} (plain : request.Plain) :
    Plainly (get request) :=
  ⟨plain, fun _ => trivial⟩

theorem plainly_demand {α : Type} {request : Section} (plain : request.Plain)
    (translate : request.Reply → Except LymailleError α) :
    Plainly (demand request translate) :=
  ⟨plain, fun _ => trivial⟩

theorem unstoring_get {request : Section} (unstored : request.Unstored) :
    Unstoring (get request) :=
  ⟨unstored, fun _ => trivial⟩

theorem plainly_checkCount (maxOpenPerUser : ℕ) (caller : CallerPrincipal)
    (subject : String) :
    Plainly (checkCount maxOpenPerUser caller subject) := by
  unfold checkCount
  split
  next => exact .pure ()
  next =>
    have asks : (Section.count subject).Plain := ⟨trivial, trivial⟩
    apply Query.Only.bind (plainly_get asks)
    intro count
    split
    next => exact trivial
    next => exact .pure ()

theorem plainly_touch (subject : String) (id : SessionId) :
    Plainly (touch subject id) := by
  have reads : Section.now.Plain := ⟨trivial, trivial⟩
  apply Query.Only.bind (plainly_get reads)
  intro now
  have asks : (Section.touch subject id now).Plain := ⟨trivial, trivial⟩
  exact plainly_get asks

theorem plainly_signal (id : SessionId) : Plainly (signal id) := by
  have asks : (Section.entryOf id).Plain := ⟨trivial, trivial⟩
  apply Query.Only.bind (plainly_get asks)
  intro entry
  cases entry with
  | none => exact .pure ()
  | some entry =>
      have signals : (Section.signal entry).Plain := ⟨trivial, trivial⟩
      exact plainly_get signals

theorem plainly_cancel (subject : String) (id : SessionId) :
    Plainly (cancel subject id) := by
  apply Query.Only.bind (asking_principal subject).plainly
  intro caller
  apply Query.Only.bind (asking_readable subject id).plainly
  intro state
  have asks : (Section.isActive id).Plain := ⟨trivial, trivial⟩
  apply Query.Only.bind (plainly_get asks)
  intro active
  cases active with
  | false => exact .pure _
  | true => exact Query.Only.bind (plainly_signal id) fun _ => .pure _

theorem plainly_resume (subject : String) (id : SessionId) :
    Plainly (resume subject id) := by
  apply Query.Only.bind (asking_principal subject).plainly
  intro caller
  apply Query.Only.bind (asking_readable subject id).plainly
  intro state
  have asks : (Section.readContextColumn subject id).Plain := ⟨trivial, trivial⟩
  apply Query.Only.bind (plainly_demand asks storeError)
  intro column
  cases column with
  | none => exact trivial
  | some context =>
      have assembles : ∀ kind agent,
          (Section.assemble caller kind agent id none).Plain :=
        fun _ _ => ⟨trivial, trivial⟩
      apply Query.Only.bind (plainly_demand (assembles _ _) _)
      intro assembled
      have registers : (Section.hub (.register id subject)).Plain := ⟨trivial, trivial⟩
      apply Query.Only.bind (plainly_get registers)
      intro _
      have reopens : (Section.reopen id).Plain := ⟨trivial, trivial⟩
      apply Query.Only.bind (plainly_get reopens)
      intro _
      apply Query.Only.bind (plainly_touch subject id)
      intro entry
      exact .pure _

theorem plainly_closeSession (id : SessionId) :
    Plainly (closeSession id) := by
  have closes : Plainly (do
      get (.hub (.removeSlot id))
      get (.hub (.removeSubject id))
      get (.closeTable id) : Code Unit) := by
    have slot : (Section.hub (.removeSlot id)).Plain := ⟨trivial, trivial⟩
    apply Query.Only.bind (plainly_get slot)
    intro _
    have subject : (Section.hub (.removeSubject id)).Plain := ⟨trivial, trivial⟩
    apply Query.Only.bind (plainly_get subject)
    intro _
    have table : (Section.closeTable id).Plain := ⟨trivial, trivial⟩
    exact plainly_get table
  have asks : (Section.isActive id).Plain := ⟨trivial, trivial⟩
  apply Query.Only.bind (plainly_get asks)
  intro active
  cases active with
  | false => exact closes
  | true => exact Query.Only.bind (plainly_signal id) fun _ => closes

theorem plainly_close (subject : String) (id : SessionId) :
    Plainly (close subject id) := by
  apply Query.Only.bind (asking_principal subject).plainly.attempt
  intro caller
  cases caller with
  | error error => exact .pure ()
  | ok caller =>
      apply Query.Only.bind (asking_readable subject id).plainly.attempt
      intro state
      cases state with
      | error error => exact .pure ()
      | ok state => exact plainly_closeSession id

theorem unstoring_send (subject : String) (id : SessionId) (text : String)
    (token : Option String) : Unstoring (send subject id text token) := by
  apply Query.Only.bind (asking_principal subject).plainly.idling.unstoring
  intro caller
  apply Query.Only.bind (asking_readable subject id).plainly.idling.unstoring
  intro state
  have closed : (Section.isClosed id).Unstored := trivial
  apply Query.Only.bind (unstoring_get closed)
  intro closed
  cases closed with
  | true => exact trivial
  | false =>
      have begins : (Section.tryBegin id).Unstored := trivial
      refine ⟨begins, fun permit => ?_⟩
      cases permit with
      | error error => exact trivial
      | ok permit =>
          apply Query.Only.bind (plainly_touch subject id).idling.unstoring
          intro entry
          exact ⟨trivial, fun _ => ⟨trivial, fun _ => ⟨trivial, fun _ =>
            trivial⟩⟩⟩

theorem idling_emitAll (session : SessionId) (kinds : List EventKind) :
    Idling (emitAll session kinds) := by
  induction kinds with
  | nil => exact .pure ()
  | cons kind kinds induction =>
      exact ⟨trivial, fun _ => ⟨trivial, fun _ => ⟨trivial, fun _ =>
        induction⟩⟩⟩

theorem idling_runTurn (turn : Turn) : Idling (runTurn turn) := by
  refine ⟨trivial, fun assembled => ?_⟩
  cases assembled with
  | error error => exact ⟨trivial, fun _ => trivial⟩
  | ok assembled =>
      have ends : ∀ events : List EventKind, Idling (do
          emitAll turn.session events
          get (.turnEnded turn assembled.cancel)
          get (.release turn.session turn.permit) : Code Unit) := by
        intro events
        apply Query.Only.bind (idling_emitAll turn.session events)
        intro _
        exact ⟨trivial, fun _ => ⟨trivial, fun _ => trivial⟩⟩
      refine ⟨trivial, fun _ => ⟨trivial, fun requested => ?_⟩⟩
      cases requested with
      | false => exact ⟨trivial, ends⟩
      | true => exact ⟨trivial, fun _ => ⟨trivial, ends⟩⟩

theorem idling_subscribe (subject : String) (id : SessionId) :
    Idling (subscribe subject id) := by
  apply Query.Only.bind (asking_principal subject).plainly.idling
  intro _
  apply Query.Only.bind (asking_readable subject id).plainly.idling
  intro _
  exact ⟨trivial, fun _ => ⟨trivial, fun _ => ⟨trivial, fun _ =>
    ⟨trivial, fun _ => trivial⟩⟩⟩⟩

theorem quietly_principal (subject : String) : Quietly (principal subject) :=
  (asking_principal subject).quietly

theorem quietly_readable (subject : String) (id : SessionId) :
    Quietly (readable subject id) :=
  (asking_readable subject id).quietly

theorem quietly_open (maxOpenPerUser : ℕ) (subject context : String)
    (agent : Option String) :
    Quietly (open_ maxOpenPerUser subject context agent) := by
  apply Query.Only.bind (quietly_principal subject)
  intro caller
  apply Query.Only.bind (asking_resolveStart caller context agent).quietly
  intro start
  apply Query.Only.bind (plainly_checkCount _ caller subject).quietly
  intro _
  apply Query.Only.bind (asking_toolsetVersions subject _).quietly
  intro versions
  have names : Section.uuid.Silent := trivial
  apply Query.Only.bind (quietly_get names)
  intro id
  have reads : Section.now.Silent := trivial
  apply Query.Only.bind (quietly_get reads)
  intro createdAt
  have saves : ∀ subject state, (Section.save subject state).Silent :=
    fun _ _ => trivial
  apply Query.Only.bind (quietly_demand (saves _ _) _)
  intro _
  have stamps : (Section.stampContext subject id context).Silent := trivial
  apply Query.Only.bind (quietly_demand stamps storeError)
  intro _
  have registers : (Section.hub (.register id subject)).Silent := trivial
  apply Query.Only.bind (quietly_get registers)
  intro _
  apply Query.Only.bind (plainly_touch subject id).quietly
  intro entry
  exact .pure _

theorem quietly_cancel (subject : String) (id : SessionId) :
    Quietly (cancel subject id) :=
  (plainly_cancel subject id).quietly

theorem quietly_resume (subject : String) (id : SessionId) :
    Quietly (resume subject id) :=
  (plainly_resume subject id).quietly

theorem quietly_close (subject : String) (id : SessionId) :
    Quietly (close subject id) :=
  (plainly_close subject id).quietly

end MiryadCore.Interactive.Manager
