import MiryadCore.Control.Observation
import MiryadCore.Interactive.StoredSessions
import MiryadCore.Interactive.Tokenless

/-!
# Closing a session and resuming it

A closed session is refused until it is resumed, and it is resumed only once
it has been assembled.  A turn is assembled with the token of its caller;
`resume` has none, so a session with a role whose server wants the token is
resumed no more.
-/

namespace MiryadCore.Interactive

open Manager (Section Conditions)

variable {parts : Parts} {engine : AssembleParts}

/-- The accounts, and what the sessions are assembled of. -/
structure World (engine : AssembleParts) where
  accounts : String → Option ℤ
  deps : AssembleDeps engine

/-- The stored sessions and the manager, with the turns that were started. -/
structure Desk (parts : Parts) where
  stored : Stored parts
  started : List Manager.Turn

namespace World

variable (world : World engine)

/-- What the world replies to a section, without any failure of its own. -/
def conditions (now : ℕ) (sessions : Sessions SessionState) :
    Section → Conditions
  | .account subject => { now, account := .ok (world.accounts subject) }
  | .assemble caller kind agentId session token =>
      { now
        assembled := world.deps.assembleSession sessions caller kind agentId
          session token }
  | _ => { now }

/-- The turns that have been started after a section. -/
def starts (started : List Manager.Turn) : Section → List Manager.Turn
  | .spawn turn => started ++ [turn]
  | _ => started

/-- A section of a call that runs alone, at a time. -/
def exec : Script.Service Section Section.Reply ℕ (Desk parts) :=
  fun now desk request =>
    let answered := desk.stored.perform
      (world.conditions now desk.stored.sessions request) request
    (answered.1,
      { stored := answered.2, started := starts desk.started request })

/-- The caller that a subject is, as `principal` has it. -/
def callerOf (desk : Desk parts) (subject : String) :
    Except LymailleError CallerPrincipal :=
  match world.accounts subject with
  | none => .error (.forbidden "no local account for this session subject")
  | some userId =>
      .ok { userId, subject, isAdmin := desk.stored.manager.admins subject }

/-- The assembly of a session succeeds. -/
def Assembles (desk : Desk parts) (caller : CallerPrincipal)
    (kind : SessionKind) (agentId : String) (session : SessionId)
    (token : Option String) : Prop :=
  ∃ notices, world.deps.assembleSession desk.stored.sessions caller kind
    agentId session token = .ok notices

/-- `send` accepts the turn, and what it starts is assembled. -/
def Sends (times : ℕ → ℕ) (desk : Desk parts) (subject : String)
    (id : SessionId) (text : String) (token : Option String) : Prop :=
  let ended := Script.run world.exec times
    (Manager.send subject id text token) desk
  ended.1 = .ok () ∧ ∃ turn, ended.2.started = desk.started ++ [turn] ∧
    world.Assembles ended.2 turn.caller turn.kind turn.agentId turn.session
      turn.token

/-- The sessions, the gate, the administrators and the turns started. -/
structure Keeps (desk after : Desk parts) : Prop where
  sessions : after.stored.sessions = desk.stored.sessions
  gate : after.stored.manager.gate = desk.stored.manager.gate
  admins : after.stored.manager.admins = desk.stored.manager.admins
  started : after.started = desk.started

variable {world} {desk after : Desk parts}

theorem Keeps.refl (desk : Desk parts) : Keeps desk desk :=
  ⟨rfl, rfl, rfl, rfl⟩

theorem Keeps.trans {one two three : Desk parts} (first : Keeps one two)
    (second : Keeps two three) : Keeps one three where
  sessions := second.sessions.trans first.sessions
  gate := second.gate.trans first.gate
  admins := second.admins.trans first.admins
  started := second.started.trans first.started

theorem keeps_of_touch (subject : String) (id : SessionId) (now : ℕ)
    (manager : Manager parts) :
    (manager.sweepTouch subject id now).2.gate = manager.gate ∧
      (manager.sweepTouch subject id now).2.admins = manager.admins := by
  unfold Manager.sweepTouch Manager.touchTable
  split
  next => exact ⟨rfl, rfl⟩
  next => exact ⟨rfl, rfl⟩

theorem keeps_of_signal (entry : ℕ) (manager : Manager parts) :
    (manager.signalEntry entry).gate = manager.gate ∧
      (manager.signalEntry entry).admins = manager.admins := by
  unfold Manager.signalEntry
  split
  next => exact ⟨rfl, rfl⟩
  next => exact ⟨rfl, rfl⟩
  next => exact ⟨rfl, rfl⟩

/-- The plain sections keep all of them. -/
theorem keeps_of_plain (now : ℕ) (desk : Desk parts) {request : Section}
    (plain : request.Plain) : Keeps desk (world.exec now desk request).2 := by
  have started : starts desk.started request = desk.started := by
    cases request <;> first | rfl | exact plain.1.elim
  cases request with
  | tryBegin id => exact plain.1.elim
  | spawn turn => exact plain.1.elim
  | release id permit => exact plain.1.elim
  | save subject state => exact plain.2.elim
  | stampContext subject id context => exact plain.2.elim
  | touch subject id now =>
      have kept := keeps_of_touch subject id now desk.stored.manager
      exact ⟨rfl, kept.1, kept.2, started⟩
  | signal entry =>
      have kept := keeps_of_signal entry desk.stored.manager
      exact ⟨rfl, kept.1, kept.2, started⟩
  | assemble caller kind agentId session token =>
      have kept : (world.exec now desk
          (.assemble caller kind agentId session token)).2.stored.manager.gate =
            desk.stored.manager.gate ∧
          (world.exec now desk (.assemble caller kind agentId session
            token)).2.stored.manager.admins = desk.stored.manager.admins := by
        simp only [exec, Stored.perform, conditions, Manager.exec]
        split
        next => exact ⟨rfl, rfl⟩
        next => exact ⟨rfl, rfl⟩
      exact ⟨rfl, kept.1, kept.2, started⟩
  | _ => exact ⟨rfl, rfl, rfl, started⟩

section Reads

variable {α : Type} {post : α → Desk parts → Prop}
  {err : LymailleError → Desk parts → Prop}

theorem meets_demand {β : Type} {request : Section}
    {translate : request.Reply → Except LymailleError β}
    {next : β → Manager.Code α} {answer : request.Reply}
    (replies : ∀ now, world.exec now desk request = (answer, after))
    (rest : Query.Meets world.exec Eq (fun _ _ => True)
      (Query.ofExcept (translate answer) >>= next) post err after) :
    Query.Meets world.exec Eq (fun _ _ => True)
      (Manager.demand request translate >>= next) post err desk := by
  apply Script.Meets.alone
  intro now
  rw [replies now]
  exact rest

theorem observes_principal (subject : String) :
    Query.Observes world.exec (Manager.principal subject) desk
      (fun caller => world.callerOf desk subject = .ok caller)
      fun error => world.callerOf desk subject = .error error := by
  have replies : ∀ now, world.exec now desk (.account subject) =
      (.ok (world.accounts subject), desk) := fun _ => rfl
  apply meets_demand replies
  unfold callerOf
  cases world.accounts subject with
  | none => exact Query.Observes.fail rfl
  | some userId =>
      have replies : ∀ now, world.exec now desk (.admin subject) =
          (.ok (desk.stored.manager.admins subject), desk) := fun _ => rfl
      apply meets_demand replies
      exact Query.Observes.pure rfl

theorem observes_readable (subject : String) (id : SessionId) :
    Query.Observes world.exec (Manager.readable subject id) desk
      (fun state => desk.stored.sessions.load subject id = some state)
      fun _ => desk.stored.sessions.load subject id = none := by
  have replies : ∀ now, world.exec now desk (.load subject id) =
      (.ok (desk.stored.sessions.load subject id), desk) := fun _ => rfl
  apply meets_demand replies
  cases found : desk.stored.sessions.load subject id with
  | none => exact Query.Observes.fail rfl
  | some state => exact Query.Observes.pure rfl

end Reads

/-- What `send` needs to start a turn. -/
structure Sendable (world : World engine) (desk : Desk parts)
    (subject : String) (id : SessionId) (caller : CallerPrincipal)
    (state : SessionState) : Prop where
  called : world.callerOf desk subject = .ok caller
  loaded : desk.stored.sessions.load subject id = some state
  open_ : desk.stored.manager.table.isClosed id = false
  free : (parts.gate.tryBegin id desk.stored.manager.gate).1 = .ok ()

theorem exec_tryBegin_error (world : World engine) {id : SessionId} {error : SessionError}
    (refused : (parts.gate.tryBegin id desk.stored.manager.gate).1 =
      .error error) :
    ∃ after, ∀ now, world.exec now desk (.tryBegin id) =
      (.error error, after) := by
  refine ⟨{ desk with
    stored := { desk.stored with
      manager := { desk.stored.manager with
        gate := (parts.gate.tryBegin id desk.stored.manager.gate).2 } } },
    fun now => ?_⟩
  simp only [exec, Stored.perform, Manager.exec, Manager.tryBegin, refused,
    starts]

theorem exec_tryBegin_ok (world : World engine) {id : SessionId}
    (given : (parts.gate.tryBegin id desk.stored.manager.gate).1 = .ok ()) :
    ∃ after, (∀ now, world.exec now desk (.tryBegin id) =
        (.ok desk.stored.manager.permits, after)) ∧
      after.stored.sessions = desk.stored.sessions ∧
      after.started = desk.started := by
  refine ⟨{ desk with
    stored := { desk.stored with
      manager := { desk.stored.manager with
        gate := (parts.gate.tryBegin id desk.stored.manager.gate).2
        permits := desk.stored.manager.permits + 1 } } },
    fun now => ?_, rfl, rfl⟩
  simp only [exec, Stored.perform, Manager.exec, Manager.tryBegin, given, starts]

theorem meets_send (world : World engine) (desk : Desk parts)
    (subject : String) (id : SessionId) (text : String)
    (token : Option String) :
    Query.Meets world.exec Eq (fun _ _ => True)
      (Manager.send subject id text token)
      (fun _ after => after.stored.sessions = desk.stored.sessions ∧
        ∃ caller state, world.Sendable desk subject id caller state ∧
          ∃ turn, after.started = desk.started ++ [turn] ∧
            turn.caller = caller ∧ turn.kind = state.kind ∧
            turn.agentId = state.agentName ∧ turn.session = id ∧
            turn.token = token)
      (fun _ _ => ∀ caller state,
        ¬ world.Sendable desk subject id caller state) desk := by
  apply (observes_principal subject).then
  · intro error refused caller state sendable
    cases refused.symm.trans sendable.called
  intro caller called
  apply (observes_readable subject id).then
  · intro error absent other state sendable
    cases absent.symm.trans sendable.loaded
  intro state stored
  have closed : ∀ now, world.exec now desk (.isClosed id) =
      (desk.stored.manager.table.isClosed id, desk) := fun _ => rfl
  apply Script.Meets.alone
  intro now
  rw [closed now]
  cases mark : desk.stored.manager.table.isClosed id with
  | true =>
      apply Query.Meets.fail
      intro later same other state' sendable
      cases mark.symm.trans sendable.open_
  | false =>
      cases given : (parts.gate.tryBegin id desk.stored.manager.gate).1 with
      | error error =>
          obtain ⟨after, refuses⟩ := exec_tryBegin_error world given
          apply Script.Meets.alone
          intro now
          rw [refuses now]
          apply Query.Meets.fail
          intro later same other state' sendable
          cases given.symm.trans sendable.free
      | ok _ =>
          obtain ⟨after, begins, sessions, started⟩ :=
            exec_tryBegin_ok world given
          apply Script.Meets.alone
          intro now
          rw [begins now]
          refine Script.Meets.alone fun _ => Script.Meets.alone fun _ =>
            Script.Meets.alone fun _ => Script.Meets.alone fun _ =>
              Script.Meets.alone fun _ => ?_
          intro later same
          subst same
          refine ⟨sessions, caller, state, ⟨called, stored, mark, given⟩, ?_⟩
          exact ⟨_, congrArg (· ++ [_]) started, rfl, rfl, rfl, rfl, rfl⟩

/-- `send` alone starts a turn that is assembled when it may, and the session
can be assembled with its token. -/
theorem sends_iff (times : ℕ → ℕ) (subject : String) (id : SessionId)
    (text : String) (token : Option String) :
    world.Sends times desk subject id text token ↔
      ∃ caller state, world.Sendable desk subject id caller state ∧
        world.Assembles desk caller state.kind state.agentName id token := by
  have ends := Script.Meets.run (fun _ => rfl) times
    (meets_send world desk subject id text token)
  unfold Sends
  dsimp only
  generalize Script.run world.exec times
    (Manager.send subject id text token) desk = ended at ends ⊢
  obtain ⟨result, after⟩ := ended
  cases result with
  | error error =>
      constructor
      · intro sends
        cases sends.1
      · intro can
        obtain ⟨caller, state, sendable, _⟩ := can
        exact absurd sendable (ends caller state)
  | ok _ =>
      obtain ⟨sessions, caller, state, sendable, turn, started, same⟩ := ends
      obtain ⟨rfl, kind, agentId, session, token'⟩ := same
      have assembles : world.Assembles after turn.caller turn.kind turn.agentId
            turn.session turn.token ↔
          world.Assembles desk turn.caller state.kind state.agentName id
            token := by
        unfold Assembles
        rw [sessions, kind, agentId, session, token']
      constructor
      · intro sends
        obtain ⟨_, other, started', assembled⟩ := sends
        have same : turn = other :=
          List.singleton_inj.mp (List.append_cancel_left
            (started.symm.trans started'))
        rw [← same] at assembled
        exact ⟨turn.caller, state, sendable, assembles.mp assembled⟩
      · intro can
        obtain ⟨other, state', sendable', assembled⟩ := can
        cases sendable.called.symm.trans sendable'.called
        cases sendable.loaded.symm.trans sendable'.loaded
        exact ⟨rfl, turn, started, assembles.mpr assembled⟩

theorem keeps_of_plainly {α : Type} {code : Manager.Code α}
    (plainly : Manager.Plainly code) (times : ℕ → ℕ) :
    Keeps desk (Script.run world.exec times code desk).2 :=
  Script.Only.run plainly Keeps.refl Keeps.trans
    (fun now desk _ plain => keeps_of_plain now desk plain) times

theorem isClosed_touch (subject : String) (id other : SessionId) (now : ℕ)
    (manager : Manager parts) :
    (manager.sweepTouch subject id now).2.table.isClosed other =
      manager.table.isClosed other := by
  unfold Manager.sweepTouch Manager.touchTable
  split
  next => rfl
  next =>
    show ((manager.sweep now).table.insert id _).isClosed other = _
    unfold Table.insert
    split
    next => rfl
    next => rfl

/-- What `resume` needs. -/
structure Resumable (world : World engine) (desk : Desk parts)
    (subject : String) (id : SessionId) (caller : CallerPrincipal)
    (state : SessionState) : Prop where
  called : world.callerOf desk subject = .ok caller
  loaded : desk.stored.sessions.load subject id = some state
  context : desk.stored.sessions.readContext subject id ≠ none
  assembles : world.Assembles desk caller state.kind state.agentName id none

theorem meets_resume (world : World engine) (desk : Desk parts)
    (subject : String) (id : SessionId) :
    Query.Meets world.exec Eq (fun _ _ => True) (Manager.resume subject id)
      (fun _ after => after.stored.manager.table.isClosed id = false ∧
        ∃ caller state, world.Resumable desk subject id caller state)
      (fun _ _ => ∀ caller state,
        ¬ world.Resumable desk subject id caller state) desk := by
  apply (observes_principal subject).then
  · intro error refused caller state resumable
    cases refused.symm.trans resumable.called
  intro caller called
  apply (observes_readable subject id).then
  · intro error absent other state resumable
    cases absent.symm.trans resumable.loaded
  intro state stored
  have column : ∀ now, world.exec now desk (.readContextColumn subject id) =
      (.ok (desk.stored.sessions.readContext subject id), desk) :=
    fun _ => rfl
  apply meets_demand column
  cases read : desk.stored.sessions.readContext subject id with
  | none =>
      apply Query.Meets.fail
      intro later same other state' resumable
      exact resumable.context read
  | some context =>
      apply Script.Meets.alone
      intro now
      cases assembled : world.deps.assembleSession desk.stored.sessions caller
          state.kind state.agentName id none with
      | error error =>
          have refused : (world.exec now desk (.assemble caller state.kind
              state.agentName id none)).1 = .error error := by
            simp only [exec, Stored.perform, conditions, Manager.exec, assembled]
          rw [refused]
          apply Query.Meets.fail
          intro later same other state' resumable
          cases called.symm.trans resumable.called
          cases stored.symm.trans resumable.loaded
          obtain ⟨notices, again⟩ := resumable.assembles
          cases assembled.symm.trans again
      | ok notices =>
          have made : (world.exec now desk (.assemble caller state.kind
              state.agentName id none)).1 =
                .ok { cancel := desk.stored.manager.handles, notices } := by
            simp only [exec, Stored.perform, conditions, Manager.exec, assembled]
          rw [made]
          refine Script.Meets.alone fun _ => Script.Meets.alone fun _ =>
            Script.Meets.alone fun _ => Script.Meets.alone fun _ => ?_
          intro later same
          subst same
          refine ⟨?_, caller, state, called, stored,
            fun absent => (by cases read.symm.trans absent), notices, assembled⟩
          refine (isClosed_touch _ _ _ _ _).trans ?_
          exact Function.update_self _ _ _

theorem resumes_iff (times : ℕ → ℕ) (subject : String) (id : SessionId) :
    (∃ handle, (Script.run world.exec times (Manager.resume subject id)
        desk).1 = .ok handle) ↔
      ∃ caller state, world.Resumable desk subject id caller state := by
  have ends := Script.Meets.run (fun _ => rfl) times
    (meets_resume world desk subject id)
  constructor
  · intro resumed
    obtain ⟨handle, resumed⟩ := resumed
    rw [resumed] at ends
    exact ends.2
  · intro resumable
    obtain ⟨caller, state, resumable⟩ := resumable
    cases result : (Script.run world.exec times (Manager.resume subject id)
        desk).1 with
    | ok handle => exact ⟨handle, rfl⟩
    | error error =>
        rw [result] at ends
        exact absurd resumable (ends caller state)

theorem open_of_resumed {times : ℕ → ℕ} {subject : String} {id : SessionId}
    {handle : SessionHandle}
    (resumed : (Script.run world.exec times (Manager.resume subject id)
      desk).1 = .ok handle) :
    (Script.run world.exec times (Manager.resume subject id)
      desk).2.stored.manager.table.isClosed id = false := by
  have ends := Script.Meets.run (fun _ => rfl) times
    (meets_resume world desk subject id)
  rw [resumed] at ends
  exact ends.1

theorem Keeps.callerOf (keeps : Keeps desk after) (subject : String) :
    world.callerOf after subject = world.callerOf desk subject := by
  unfold World.callerOf
  rw [keeps.admins]

theorem Keeps.assembles (keeps : Keeps desk after) {caller : CallerPrincipal}
    {kind : SessionKind} {agentId : String} {session : SessionId}
    {token : Option String} :
    world.Assembles after caller kind agentId session token ↔
      world.Assembles desk caller kind agentId session token := by
  unfold Assembles
  rw [keeps.sessions]

theorem Keeps.resumable (keeps : Keeps desk after) {subject : String}
    {id : SessionId} {caller : CallerPrincipal} {state : SessionState} :
    world.Resumable after subject id caller state ↔
      world.Resumable desk subject id caller state := by
  constructor
  · intro resumable
    exact ⟨keeps.callerOf subject ▸ resumable.called,
      keeps.sessions ▸ resumable.loaded, keeps.sessions ▸ resumable.context,
      keeps.assembles.mp resumable.assembles⟩
  · intro resumable
    refine ⟨(keeps.callerOf subject).trans resumable.called, ?_, ?_,
      keeps.assembles.mpr resumable.assembles⟩
    · rw [keeps.sessions]
      exact resumable.loaded
    · rw [keeps.sessions]
      exact resumable.context

end World

/-- The session is closed, then resumed, and then sent to. -/
def World.Reopens (world : World engine) (times : Fin 3 → ℕ → ℕ)
    (desk : Desk parts) (subject : String) (id : SessionId) (text : String)
    (token : Option String) : Prop :=
  let closed := (Script.run world.exec (times 0) (Manager.close subject id)
    desk).2
  let resumed := Script.run world.exec (times 1) (Manager.resume subject id)
    closed
  (∃ handle, resumed.1 = .ok handle) ∧
    world.Sends (times 2) resumed.2 subject id text token

/-- `resume` can do without the token: the session has a context, and it is a
`Config` session or none of its roles has a server that wants the token. -/
structure World.Resumes (world : World engine) (desk : Desk parts)
    (subject : String) (id : SessionId) : Prop where
  context : desk.stored.sessions.readContext subject id ≠ none
  unforwarded : ∀ caller state,
    world.callerOf desk subject = .ok caller →
    desk.stored.sessions.load subject id = some state →
    state.kind = .config ∨
      ¬ world.deps.Forwards desk.stored.sessions caller state.agentName id

/-- A session that a turn can be started on, with the token of its caller, can
be closed and reopened exactly when it is resumed without the token. -/
theorem reopens_iff (world : World engine) (masking : Masking engine)
    (times : Fin 3 → ℕ → ℕ) (before : ℕ → ℕ) (desk : Desk parts)
    (subject : String) (id : SessionId) (text text' : String)
    (token : Option String)
    (sends : world.Sends before desk subject id text token) :
    world.Reopens times desk subject id text' token ↔
      world.Resumes desk subject id := by
  obtain ⟨caller, state, sendable, assembled⟩ :=
    (World.sends_iff before subject id text token).mp sends
  unfold World.Reopens
  dsimp only
  have closes : World.Keeps desk (Script.run world.exec (times 0)
      (Manager.close subject id) desk).2 :=
    World.keeps_of_plainly (Manager.plainly_close subject id) (times 0)
  generalize (Script.run world.exec (times 0) (Manager.close subject id)
    desk).2 = closed at closes ⊢
  have resumes : World.Keeps closed (Script.run world.exec (times 1)
      (Manager.resume subject id) closed).2 :=
    World.keeps_of_plainly (Manager.plainly_resume subject id) (times 1)
  constructor
  · intro reopens
    obtain ⟨resumed, _⟩ := reopens
    obtain ⟨caller', state', resumable⟩ :=
      (World.resumes_iff (times 1) subject id).mp resumed
    have resumable := closes.resumable.mp resumable
    refine ⟨resumable.context, fun caller'' state'' called loaded => ?_⟩
    cases resumable.called.symm.trans called
    cases resumable.loaded.symm.trans loaded
    obtain ⟨notices, again⟩ := resumable.assembles
    by_cases config : state'.kind = .config
    · exact .inl config
    · exact .inr (AssembleDeps.unforwarded_of_assembled again config)
  · intro can
    obtain ⟨notices, assembled⟩ := assembled
    have unforwarded := can.unforwarded caller state sendable.called
      sendable.loaded
    have resumable : world.Resumable desk subject id caller state :=
      ⟨sendable.called, sendable.loaded, can.context,
        AssembleDeps.assembled_of_unforwarded masking unforwarded assembled
          none⟩
    have resumed := (World.resumes_iff (times 1) subject id).mpr
      ⟨caller, state, closes.resumable.mpr resumable⟩
    refine ⟨resumed, (World.sends_iff (times 2) subject id text' token).mpr
      ⟨caller, state, ?_, ?_⟩⟩
    · obtain ⟨handle, resumed⟩ := resumed
      have kept := closes.trans resumes
      constructor
      · exact (kept.callerOf subject).trans sendable.called
      · rw [kept.sessions]
        exact sendable.loaded
      · exact World.open_of_resumed resumed
      · rw [kept.gate]
        exact sendable.free
    · exact (closes.trans resumes).assembles.mpr ⟨notices, assembled⟩

/-- An engine that is built of anything. -/
def plainEngine : AssembleParts where
  toMcpParts := Assembly.reachable
  Context := List (String × String)
  ContextType' := Unit
  ResolvedContext := Unit
  Grants := Unit
  Engine := Unit
  contextRoles context role := context.lookup role
  flatten _ _ := none
  resolveContext _ := .ok ()
  resourcesModule _ := ()
  assemble _ _ _ := .ok ()
  build _ _ := .ok ()
  restore _ _ _ _ := .ok []

def plainMasking : Masking plainEngine where
  module _ _ := True
  grants _ _ := True
  engine _ _ := True
  resources _ := trivial
  lists _ _ _ _ _ _ _ := ⟨(), rfl, trivial⟩
  assembles _ _ _ _ _ _ _ := ⟨(), rfl, trivial⟩
  builds _ _ _ _ _ _ _ _ := ⟨(), rfl, trivial⟩
  restores _ _ _ _ _ _ _ _ := ⟨[], rfl⟩

/-- An agent whose toolset requires the role `search`. -/
def searchAgent : AgentRecord where
  id := "agent"
  fingerprint := ""
  profile := "profile"
  modules := []
  toolsets := ["search"]

def searchToolset : Toolset where
  name := "search"
  version := "1.0.0"
  roles := [("search", true)]
  typeRequirements := []

def searchStores : Stores plainEngine where
  getAgent _ := .ok (some searchAgent)
  resolveProfile _ := .ok "provider"
  getProvider _ := .ok (some { address := "", auth := none })
  getActive _ := .ok (some searchToolset)
  getContext _ := .ok (some [("search", "search")])
  getType _ := .ok none

/-- The role is bound to the server. -/
def searchWorld (server : Definitions.ServerRow) : World plainEngine where
  accounts _ := some 1
  deps :=
    { stores := fun _ => searchStores
      secrets := fun _ => .ok ""
      dbText := fun _ => ""
      host := none
      moments := (Assembly.searching server).moments }

def searchState : SessionState where
  id := "s"
  kind := .work
  agentName := "agent"
  fingerprint := ""
  context := "context"
  versions := []
  createdAt := 0

/-- The session of alice, open. -/
def searchDesk : Desk Stored.plainParts where
  stored :=
    { manager := Manager.new _ ⟨1, 1000⟩ (fun _ => false) (Hub.new _ false 256)
      sessions := Sessions.stampContext "alice" "s" "context"
        (Sessions.save "alice" "s" .work searchState 0 KeyedTable.empty) }
  started := []

def searchCaller : CallerPrincipal := ⟨1, "alice", false⟩

theorem search_requirements :
    roleRequirements (fun name => (searchStores.getType name).mapError
        Manager.fromCatalog) plainEngine.flatten [searchToolset] =
      .ok ({"search"}, ∅) := by
  simp [roleRequirements, typesOf, flatRoles, searchToolset]

def searchSession : SessionScope plainEngine where
  contextName := "context"
  bindings role := [("search", "search")].lookup role
  required := {"search"}
  optional := ∅
  disjoint := Finset.disjoint_empty_right _
  context := some [("search", "search")]
  toolsets := [searchToolset]

theorem search_scope (server : Definitions.ServerRow) :
    (searchWorld server).deps.resolveScope searchDesk.stored.sessions
      searchCaller searchAgent "s" = .ok searchSession := by
  have active : AssembleDeps.activeToolsets searchStores searchAgent.toolsets =
      .ok [searchToolset] := rfl
  have loaded : searchDesk.stored.sessions.load "alice" "s" =
      some searchState := rfl
  have bound : AssembleDeps.contextOf searchStores
      (((searchDesk.stored.sessions.load "alice" "s").map
        SessionState.context).getD "") = .ok (some [("search", "search")]) := by
    rw [loaded]
    rfl
  refine (AssembleDeps.resolveScope_eq active bound search_requirements).trans
    ?_
  rfl

theorem search_roles : searchSession.roles = ["search"] := by
  rw [Scope.roles]
  show Finset.sort {"search"} ++ Finset.sort ∅ = ["search"]
  rw [Finset.sort_empty, Finset.sort_singleton, List.append_nil]

theorem search_sends {server : Definitions.ServerRow} {token : String}
    (mounts : (((searchWorld server).deps.assembly searchCaller "s" none).mountRoles
      plainEngine.toMcpParts searchSession.toScope (some token) ["search"] []
        []).outcome = .ok ([⟨"search", ()⟩], [])) :
    (searchWorld server).Sends (fun n => n) searchDesk "alice" "s" "text"
      (some token) := by
  refine (World.sends_iff _ "alice" "s" "text" (some token)).mpr
    ⟨searchCaller, searchState, ⟨rfl, rfl, rfl, rfl⟩, [], ?_⟩
  unfold AssembleDeps.assembleSession AssembleDeps.assembleWith
  have inference : (searchWorld server).deps.resolveInference searchCaller
      searchState.agentName ADMIN_ONLY_MODULES =
        .ok { definition := searchAgent, apiKey := none } := rfl
  have base : AssembleDeps.baseModules searchCaller =
      .ok [(⟨"resources", ()⟩ : GrantedModule plainEngine.toMcpParts)] := rfl
  rw [AssembleDeps.ok_bind inference,
    AssembleDeps.ok_bind (search_scope server), AssembleDeps.ok_bind base]
  rw [Assembly.mountMcpRoles, if_neg (by decide), search_roles]
  rw [AssembleDeps.ok_bind mounts]
  rfl

theorem reopens_search :
    (searchWorld Assembly.searchServer).Reopens (fun _ n => n) searchDesk
        "alice" "s" "text" (some "secret") ↔
      (searchWorld Assembly.searchServer).Resumes searchDesk "alice" "s" :=
  reopens_iff _ plainMasking _ (fun n => n) searchDesk "alice" "s" "text" "text"
    _ (search_sends rfl)

/-- The session cannot be resumed when its server wants the token. -/
theorem closed_for_ever :
    ¬ ∀ (world : World plainEngine) (times : Fin 3 → ℕ → ℕ) (before : ℕ → ℕ)
      (desk : Desk Stored.plainParts) subject id text text' token,
      world.Sends before desk subject id text token →
      world.Reopens times desk subject id text' token := by
  intro all
  have reopens := all (searchWorld Assembly.forwardServer) (fun _ n => n)
    (fun n => n) searchDesk "alice" "s" "text" "text" (some "secret")
    (search_sends rfl)
  obtain ⟨resumed, _⟩ := reopens
  obtain ⟨caller, state, resumable⟩ :=
    (World.resumes_iff _ "alice" "s").mp resumed
  have closes : World.Keeps searchDesk (Script.run
      (searchWorld Assembly.forwardServer).exec (fun n => n)
      (Manager.close "alice" "s") searchDesk).2 :=
    World.keeps_of_plainly (Manager.plainly_close "alice" "s") _
  have resumable := closes.resumable.mp resumable
  cases resumable.called
  cases resumable.loaded
  obtain ⟨notices, assembled⟩ := resumable.assembles
  apply AssembleDeps.unforwarded_of_assembled assembled (by decide)
  refine ⟨{ definition := searchAgent, apiKey := none }, searchSession,
    "search", rfl, search_scope _, ?_, Assembly.forwardServer, rfl, rfl⟩
  rw [search_roles]
  exact List.mem_singleton.mpr rfl

end MiryadCore.Interactive
