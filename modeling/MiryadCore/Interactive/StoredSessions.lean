import MiryadCore.Control.History
import MiryadCore.Interactive.ManagerProtocol
import MiryadCore.Interactive.Sessions

/-!
# The manager beside the stored sessions

The manager shares the table of the sessions with the runners, which restore a
session, run turns on it and save it: those of its own turns, and those of the
steps of a workflow, whose new sessions are of the kind `Sub`.
-/

namespace MiryadCore.Interactive

open Manager (Section Conditions)

/-- The state of the manager and the sessions of the database. -/
structure Stored (parts : Parts) where
  manager : Manager parts
  sessions : Sessions SessionState

namespace Stored

variable {parts : Parts}

/-- A section of a call on the manager, or a save of a runner. -/
inductive Request where
  | section_ (section_ : Section)
  | save (subject : String) (state : SessionState)

@[reducible]
def Request.Reply : Request → Type
  | .section_ request => request.Reply
  | .save _ _ => Except SessionError Unit

/-- A section that asks for stored sessions is told by the table, unless the
database fails. -/
def perform (conditions : Conditions) (stored : Stored parts) :
    (request : Section) → request.Reply × Stored parts
  | .load subject id =>
      match conditions.session with
      | .error error => (.error error, stored)
      | .ok _ => (.ok (stored.sessions.load subject id), stored)
  | .save subject state =>
      match conditions.save with
      | .error error => (.error error, stored)
      | .ok () => (.ok (),
          { stored with
            sessions := stored.sessions.save subject state.id state.kind state
              conditions.now })
  | .stampContext subject id context =>
      match conditions.stampContext with
      | .error error => (.error error, stored)
      | .ok () => (.ok (),
          { stored with
            sessions := stored.sessions.stampContext subject id context })
  | .readContextColumn subject id =>
      match conditions.contextColumn with
      | .error error => (.error error, stored)
      | .ok _ => (.ok (stored.sessions.readContext subject id), stored)
  | request =>
      let answered := Manager.exec conditions stored.manager request
      (answered.1, { stored with manager := answered.2 })

def exec (conditions : Conditions) (stored : Stored parts) :
    (request : Request) → request.Reply × Stored parts
  | .section_ request => stored.perform conditions request
  | .save subject state => stored.perform conditions (.save subject state)

inductive Call where
  | manager (call : Manager.Call)
  /-- A runner on a session, with the states that it saves. -/
  | runner (subject : String) (id : SessionId) (states : List SessionState)

/-- The saves of a runner; the kind of its session does not change. -/
def saves (subject : String) (id : SessionId) (kind : SessionKind) :
    List SessionState → Script Request Request.Reply Manager.Answer
  | [] => .done (.turned (.ok ()))
  | state :: states =>
      .call (.save subject { state with id, kind }) fun saved =>
        match saved with
        | .ok () => saves subject id kind states
        | .error error => .done (.turned (.error (Manager.fromSession error)))

/-- `restore_or_new`, then the turns of the runner. -/
def runner (subject : String) (id : SessionId) (states : List SessionState) :
    Script Request Request.Reply Manager.Answer :=
  .call (.section_ (.load subject id)) fun loaded =>
    match loaded with
    | .error error => .done (.turned (.error (Manager.fromSession error)))
    | .ok none => saves subject id .sub states
    | .ok (some state) => saves subject id state.kind states

def program (limits : Limits) :
    Call → Script Request Request.Reply Manager.Answer
  | .manager call =>
      (Manager.program limits call).lift Request.section_ fun _ answer => answer
  | .runner subject id states => runner subject id states

def ready (stored : Stored parts) : Request → Bool
  | .section_ request => stored.manager.ready request
  | .save _ _ => true

def spawns : Request → Option Call
  | .section_ request => (Manager.spawns request).map .manager
  | .save _ _ => none

/-- Calls on the manager and runners, beside each other. -/
def system (parts : Parts) (limits : Limits) :
    System Call Request Request.Reply Conditions (Stored parts)
      Manager.Answer where
  program := program limits
  exec := exec
  ready := ready
  spawns := spawns

/-- The manager and the table before any call. -/
def new (parts : Parts) (limits : Limits) (admins : String → Bool)
    (hub : Hub parts.channels) : Stored parts where
  manager := Manager.new parts limits admins hub
  sessions := KeyedTable.empty

/-- The parts of the runs on fixed inputs. -/
def plainParts : Parts := ⟨Ring.broadcast SessionEvent, TurnGate.listed⟩

/-- A request as it took place. -/
abbrev Passage (parts : Parts) :=
  Occurrence Request Request.Reply (Stored parts)

theorem sessions_of_unstored {request : Section}
    (unstored : request.Unstored) (conditions : Conditions)
    (stored : Stored parts) :
    (exec conditions stored (.section_ request)).2.sessions =
      stored.sessions := by
  cases request with
  | save subject state => exact unstored.elim
  | stampContext subject id context => exact unstored.elim
  | load subject id =>
      show (stored.perform conditions (.load subject id)).2.sessions = _
      unfold perform
      cases conditions.session <;> rfl
  | readContextColumn subject id =>
      show (stored.perform conditions (.readContextColumn subject id)).2.sessions
        = _
      unfold perform
      cases conditions.contextColumn <;> rfl
  | _ => rfl

theorem find_save {sessions : Sessions SessionState} {subject other : String}
    {id otherId : SessionId} (kind : SessionKind) (state : SessionState)
    (now : ℕ) {row : SessionRow SessionState}
    (found : sessions.find (other, otherId) = some row) :
    ∃ row', (sessions.save subject id kind state now).find (other, otherId) =
        some row' ∧ row'.context = row.context := by
  unfold Sessions.save
  by_cases same : (other, otherId) = (subject, id)
  · rw [same] at found ⊢
    rw [KeyedTable.find_upsert_self, found]
    exact ⟨_, rfl, rfl⟩
  · rw [KeyedTable.find_upsert_of_ne same]
    exact ⟨row, found, rfl⟩

theorem find_save_self (sessions : Sessions SessionState) (subject : String)
    (id : SessionId) (kind : SessionKind) (state : SessionState) (now : ℕ) :
    ∃ row, (sessions.save subject id kind state now).find (subject, id) =
      some row := by
  unfold Sessions.save
  rw [KeyedTable.find_upsert_self]
  exact ⟨_, rfl⟩

theorem find_save_new {sessions : Sessions SessionState} {subject : String}
    {id : SessionId} (kind : SessionKind) (state : SessionState) (now : ℕ)
    (new : sessions.find (subject, id) = none) :
    ∃ row, (sessions.save subject id kind state now).find (subject, id) =
      some row ∧ row.context = none := by
  unfold Sessions.save
  rw [KeyedTable.find_upsert_self, new]
  exact ⟨_, rfl, rfl⟩

end Stored

end MiryadCore.Interactive
