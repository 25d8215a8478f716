import MiryadCore.Chat.BridgeRequests
import MiryadCore.Control.History
import MiryadCore.Interactive.HubCorrectness
import MiryadCore.Interactive.ManagerRequests

/-!
# The answers of the bridge

A message subscribes to the session of its room, starts a turn, and sends as
its answer the first end of a turn that it receives.  A task goes through
stages: it subscribes, has the permit of a turn, waits for the end of the turn
that it started, then sends the parts of its answer.
-/

namespace MiryadCore.Chat.Bridging.Answers

open Interactive Code

variable {parts : Parts} {config : ChatConfig}

/-- A text that is sent to a room. -/
structure Sending where
  roomId : String
  text : String
  txnId : Option String
  deriving DecidableEq, Repr

/-- How a turn ends. -/
structure End where
  outcome : SessionOutcome
  response : String
  deriving DecidableEq, Repr

/-- The end of a turn that an event tells. -/
def ending : SessionEvent → Option End
  | { kind := .turnEnded _ outcome response, .. } => some { outcome, response }
  | _ => none

/-- The parts of a text, from a rank on. -/
def ranked (roomId eventId : String) : ℕ → List String → List Sending
  | _, [] => []
  | rang, partie :: parties =>
      { roomId, text := partie, txnId := some (eventId ++ "-" ++ toString rang) }
        :: ranked roomId eventId (rang + 1) parties

/-- What tells the end of a turn to the room of a message. -/
def answer (message : MatrixMessage) (ended : End) : List Sending :=
  match ended.outcome with
  | .valid =>
      ranked message.roomId message.eventId 0 (splitMessage ended.response)
  | .failed =>
      [{ roomId := message.roomId, text := formatError RUN_FAILED_CODE
         txnId := none }]
  | .cancelled =>
      [{ roomId := message.roomId, text := CANCELLED_TEXT, txnId := none }]

/-- The turn that a task has started, and what it has sent since. -/
structure Courier where
  process : ℕ
  turn : Manager.Turn
  sent : List Sending

/-- What a request of the task makes of its courier. -/
def carry : Request → Option Courier → Option Courier
  | .manager process _ (.spawn turn), _ => some { process, turn, sent := [] }
  | .send roomId text txnId, courier =>
      courier.map fun courier =>
        { courier with sent := courier.sent ++ [{ roomId, text, txnId }] }
  | _, courier => courier

/-- The turn that the task last started, and what it has sent since. -/
def courier (task : ℕ) : Trace parts → Option Courier
  | [] => none
  | passage :: earlier =>
      if passage.task = task then carry passage.request (courier task earlier)
      else courier task earlier

/-- The task handles the message. -/
def Handles (trace : Trace parts) (task : ℕ) (message : MatrixMessage) : Prop :=
  ∃ before, ⟨task, before, .handle message, ()⟩ ∈ trace

/-- The turn has told its subscribers that it ends so. -/
def Ended (trace : Trace parts) (process : ℕ) (turn : Manager.Turn)
    (ended : End) : Prop :=
  ∃ task before session event, ending event = some ended ∧
    ⟨task, before, .manager process (some turn) (.hub (.diffuse session event)),
      ()⟩ ∈ trace

/-- The process and the permit that a request gives back. -/
def releases : Request → Option (ℕ × ℕ)
  | .manager process _ (.release _ permit) => some (process, permit)
  | _ => none

/-- The permit of a turn has been given back. -/
def Released (trace : Trace parts) (process permit : ℕ) : Prop :=
  ∃ passage ∈ trace, releases passage.request = some (process, permit)

/-- What a task sends after it has started a turn is an answer to its message
that tells how this turn ended. -/
def AnswersOwn (trace : Trace parts) : Prop :=
  ∀ task started, courier task trace = some started →
    started.sent = [] ∨ ∃ message ended, Handles trace task message ∧
      Ended trace started.process started.turn ended ∧
      started.sent <+: answer message ended

/-- Each message answers with the end of its own turn, and no other task sends
an answer for this turn. -/
structure Answered (trace : Trace parts) : Prop where
  own : AnswersOwn trace
  once : ∀ {one other first second}, courier one trace = some first →
    courier other trace = some second → first.process = second.process →
    first.turn.permit = second.turn.permit → one = other

inductive Phase where
  | arrived
  | calm
  | handling (message : MatrixMessage)
  | slotted (message : Option MatrixMessage) (process : ℕ) (id : SessionId)
      (slot : ℕ)
  | listening (message : MatrixMessage) (process : ℕ) (id : SessionId)
      (subscription : Subscription)
  | permitted (watch : Option (MatrixMessage × Subscription)) (process : ℕ)
      (id : SessionId) (permit : ℕ)
  | waiting (message : MatrixMessage) (process : ℕ) (turn : Manager.Turn)
      (subscription : Subscription)
  | answering (left : List Sending)
  | turning (process : ℕ) (turn : Manager.Turn)

/-- A task with the subscriptions that it has made. -/
structure Stage where
  owned : List (ℕ × Subscription)
  phase : Phase

/-- The requests that any task may make at any stage. -/
def Request.Plain : Request → Prop
  | .handle _ | .send _ _ _ => False
  | .manager _ _ request => request.Silent
  | _ => True

/-- The subscription that a request uses. -/
def Request.uses : Request → Option (ℕ × Subscription)
  | .manager process _ (.hub (.recv subscription)) =>
      some (process, subscription)
  | .manager process _ (.hub (.unsubscribe subscription)) =>
      some (process, subscription)
  | _ => none

namespace Phase

def Allows : Phase → Request → Prop
  | _, .manager _ _ (.hub (.unsubscribe _)) => True
  | .arrived, .handle _ => True
  | .calm, .manager _ _ (.tryBegin _) => True
  | .calm, .manager _ _ (.hub (.slot _)) => True
  | .calm, .manager _ _ (.hub (.recv _)) => True
  | .handling _, .send _ _ _ => True
  | .handling _, .manager _ _ (.hub (.slot _)) => True
  | .slotted _ process id slot, .manager process' _ (.hub (.subscribe id' slot')) =>
      process' = process ∧ id' = id ∧ slot' = slot
  | .listening _ _ _ _, .send _ _ _ => True
  | .listening _ _ _ _, .manager _ _ (.hub (.slot _)) => True
  | .listening _ process id _, .manager process' _ (.tryBegin id') =>
      process' = process ∧ id' = id
  | .permitted _ process id permit, .manager process' _ (.spawn turn) =>
      process' = process ∧ turn.session = id ∧ turn.permit = permit
  | .waiting _ process _ subscription,
      .manager process' _ (.hub (.recv subscription')) =>
      process' = process ∧ subscription' = subscription
  | .answering left, .send roomId text txnId =>
      left.head? = some { roomId, text, txnId }
  | .turning process turn, .manager process' label (.hub (.diffuse session _)) =>
      process' = process ∧ label = some turn ∧ session = turn.session
  | .turning process turn, .manager process' _ (.release id permit) =>
      process' = process ∧ id = turn.session ∧ permit = turn.permit
  | _, request => Request.Plain request

def next : Phase → (request : Request) → request.Reply → Phase
  | .arrived, .handle message, _ => .handling message
  | .calm, .manager process _ (.tryBegin id), .ok permit =>
      .permitted none process id permit
  | .calm, .manager process _ (.hub (.slot id)), slot =>
      .slotted none process id slot
  | .handling message, .manager process _ (.hub (.slot id)), slot =>
      .slotted (some message) process id slot
  | .listening message _ _ _, .manager process _ (.hub (.slot id)), slot =>
      .slotted (some message) process id slot
  | .slotted message process id slot, .manager _ _ (.hub (.subscribe _ _)),
      receiver =>
      message.elim .calm fun message =>
        .listening message process id { slot, receiver }
  | .listening message process id subscription, .manager _ _ (.tryBegin _),
      .ok permit =>
      .permitted (some (message, subscription)) process id permit
  | .permitted watch process _ _, .manager _ _ (.spawn turn), _ =>
      watch.elim .calm fun watch => .waiting watch.1 process turn watch.2
  | .waiting message process turn subscription,
      .manager _ _ (.hub (.recv _)), .ok event =>
      (ending event).elim (.waiting message process turn subscription)
        fun ended => .answering (answer message ended)
  | .answering left, .send _ _ _, _ => .answering left.tail
  | .turning _ _, .manager _ _ (.release _ _), _ => .calm
  | phase, _, _ => phase

/-- The permit that a task has. -/
def token : Phase → Option (ℕ × ℕ)
  | .permitted _ process _ permit => some (process, permit)
  | .turning process turn => some (process, turn.permit)
  | _ => none

/-- The message of the phase may still send texts that are no answer. -/
def Open (message : MatrixMessage) : Phase → Prop
  | .handling other => other = message
  | .listening other _ _ _ => other = message
  | _ => False

end Phase

namespace Stage

def Allows (stage : Stage) (request : Request) : Prop :=
  stage.phase.Allows request ∧ ∀ used ∈ Request.uses request, used ∈ stage.owned

/-- The subscriptions that the task has after a request. -/
def keep (owned : List (ℕ × Subscription)) :
    (request : Request) → request.Reply → List (ℕ × Subscription)
  | .manager process _ (.hub (.subscribe _ slot)), receiver =>
      (process, { slot, receiver }) :: owned
  | _, _ => owned

def next (stage : Stage) (request : Request) (answer : request.Reply) : Stage where
  owned := keep stage.owned request answer
  phase := stage.phase.next request answer

def start : Call → Stage
  | .deliver _ _ _ => { owned := [], phase := .arrived }
  | .manager process (.turn turn) =>
      { owned := [], phase := .turning process turn }
  | _ => { owned := [], phase := .calm }

end Stage

/-- The stages of the tasks of the bridge. -/
def exchanges : Protocol Call Request Request.Reply (Except String Unit)
    Stage where
  start := Stage.start
  allows := Stage.Allows
  next := Stage.next
  ends _ _ _ := True

theorem plain_allowed {phase : Phase} {request : Request}
    (plain : Request.Plain request) : phase.Allows request := by
  cases request with
  | handle message => exact plain.elim
  | send roomId text txnId => exact plain.elim
  | manager process label section_ =>
      cases section_ with
      | tryBegin id => exact plain.elim
      | spawn turn => exact plain.elim
      | release id permit => exact plain.elim
      | hub request =>
          cases request with
          | slot id => exact plain.elim
          | subscribe id slot => exact plain.elim
          | diffuse id event => exact plain.elim
          | recv subscription => exact plain.elim
          | unsubscribe subscription => exact plain.elim
          | _ => cases phase <;> trivial
      | _ => cases phase <;> trivial
  | _ => cases phase <;> trivial

theorem plain_next (phase : Phase) {request : Request}
    (plain : Request.Plain request) (answer : request.Reply) :
    phase.next request answer = phase := by
  cases request with
  | handle message => exact plain.elim
  | send roomId text txnId => exact plain.elim
  | manager process label section_ =>
      cases section_ with
      | tryBegin id => exact plain.elim
      | spawn turn => exact plain.elim
      | release id permit => exact plain.elim
      | hub request =>
          cases request with
          | slot id => exact plain.elim
          | subscribe id slot => exact plain.elim
          | diffuse id event => exact plain.elim
          | recv subscription => exact plain.elim
          | unsubscribe subscription => exact plain.elim
          | _ => cases phase <;> rfl
      | _ => cases phase <;> rfl
  | _ => cases phase <;> rfl

theorem plain_uses {request : Request} (plain : Request.Plain request) :
    Request.uses request = none := by
  cases request with
  | manager process label section_ =>
      cases section_ with
      | hub request =>
          cases request with
          | recv subscription => exact plain.elim
          | unsubscribe subscription => exact plain.elim
          | _ => rfl
      | _ => rfl
  | _ => rfl

theorem plain_keep (owned : List (ℕ × Subscription)) {request : Request}
    (plain : Request.Plain request) (answer : request.Reply) :
    Stage.keep owned request answer = owned := by
  cases request with
  | manager process label section_ =>
      cases section_ with
      | hub request =>
          cases request with
          | subscribe id slot => exact plain.elim
          | _ => rfl
      | _ => rfl
  | _ => rfl

theorem plain_obeys {α : Type} {script : Script Request Request.Reply α}
    (only : script.Only Request.Plain) (stage : Stage) :
    script.Obeys exchanges stage fun after _ => after = stage := by
  apply Script.Only.obeys only
  · intro request plain
    refine ⟨plain_allowed plain, ?_⟩
    rw [plain_uses plain]
    exact nofun
  · intro request plain answer
    show (⟨Stage.keep stage.owned request answer, _⟩ : Stage) = stage
    rw [plain_keep stage.owned plain, plain_next stage.phase plain]

/-- A request that an open phase allows, and that leaves it. -/
def Request.Spoken (request : Request) : Prop :=
  Request.Plain request ∨ ∃ roomId text txnId, request = .send roomId text txnId

/-- Plain requests and texts leave an open stage. -/
theorem spoken_obeys {α : Type} {script : Script Request Request.Reply α}
    {message : MatrixMessage} {stage : Stage}
    (only : script.Only Request.Spoken) (isOpen : stage.phase.Open message) :
    script.Obeys exchanges stage fun after _ => after = stage := by
  obtain ⟨owned, phase⟩ := stage
  apply Script.Only.obeys only
  · intro request spoken
    rcases spoken with plain | ⟨roomId, text, txnId, rfl⟩
    · refine ⟨plain_allowed plain, ?_⟩
      rw [plain_uses plain]
      exact nofun
    · refine ⟨?_, nofun⟩
      cases phase with
      | handling other => trivial
      | listening other process id subscription => trivial
      | _ => exact isOpen.elim
  · intro request spoken answer
    rcases spoken with plain | ⟨roomId, text, txnId, rfl⟩
    · show (⟨Stage.keep owned request answer, _⟩ : Stage) = _
      rw [plain_keep owned plain, plain_next phase plain]
    · cases phase with
      | handling other => rfl
      | listening other process id subscription => rfl
      | _ => exact isOpen.elim

section Sections

variable {process : ℕ} {label : Option Manager.Turn} {stage : Stage}

/-- The sections of the manager of a process. -/
abbrev sections (process : ℕ) (label : Option Manager.Turn) :=
  exchanges.comap (Request.manager process label)

theorem quiet_obeys {α : Type} {code : Manager.Code α}
    (quiet : Manager.Quietly code) :
    Script.Obeys (sections process label) code stage
      fun after _ => after = stage := by
  apply Script.Only.obeys quiet
  · intro request silent
    have plain : Request.Plain (.manager process label request) := silent
    refine ⟨plain_allowed plain, ?_⟩
    rw [plain_uses plain]
    exact nofun
  · intro request silent answer
    have plain : Request.Plain (.manager process label request) := silent
    show (⟨Stage.keep stage.owned (.manager process label request) answer, _⟩ :
      Stage) = stage
    rw [plain_keep stage.owned plain, plain_next stage.phase plain]

theorem quiet_then {α β : Type} {code : Manager.Code α}
    {next : α → Manager.Code β} {ends : Stage → Except LymailleError β → Prop}
    (quiet : Manager.Quietly code)
    (after : ∀ value, Script.Obeys (sections process label) (next value) stage
      ends)
    (fails : ∀ error, ends stage (.error error)) :
    Script.Obeys (sections process label) (code >>= next : Manager.Code β) stage
      ends := by
  apply Query.obeys_bind
  apply (quiet_obeys quiet).mono
  intro reached result same
  subst same
  cases result with
  | ok value => exact after value
  | error error => exact fails error

theorem get_then {β : Type} {request : Manager.Section}
    {next : request.Reply → Manager.Code β}
    {ends : Stage → Except LymailleError β → Prop} (silent : request.Silent)
    (after : ∀ value, Script.Obeys (sections process label) (next value) stage
      ends) :
    Script.Obeys (sections process label)
      (Manager.get request >>= next : Manager.Code β) stage ends := by
  have quiet : Script.Obeys (sections process label) (Manager.get request)
      stage fun after _ => after = stage :=
    quiet_obeys (Manager.quietly_get silent)
  refine ⟨quiet.1, fun answer => ?_⟩
  rw [quiet.2 answer]
  exact after answer

/-- Where a subscription to the session leads from a phase. -/
def Follows (phase : Phase) (process : ℕ) (id : SessionId)
    (message : Option MatrixMessage) : Prop :=
  (∀ label, phase.Allows (.manager process label (.hub (.slot id)))) ∧
    ∀ label (slot : ℕ), phase.next (.manager process label (.hub (.slot id)))
      slot = .slotted message process id slot

/-- The stage of a task that has subscribed. -/
def subscribedStage (stage : Stage) (process : ℕ) (id : SessionId)
    (message : Option MatrixMessage) (subscription : Subscription) : Stage where
  owned := (process, subscription) :: stage.owned
  phase := message.elim .calm fun message =>
    .listening message process id subscription

theorem subscribe_obeys {subject : String} {id : SessionId}
    {message : Option MatrixMessage}
    (follows : Follows stage.phase process id message) :
    Script.Obeys (sections process label) (Manager.subscribe subject id) stage
      fun after result =>
        match result with
        | .ok subscription =>
            after = subscribedStage stage process id message subscription
        | .error _ => after = stage := by
  apply quiet_then (Manager.quietly_principal subject) _ fun _ => rfl
  intro caller
  apply quiet_then (Manager.quietly_readable subject id) _ fun _ => rfl
  intro state
  have adopts : (Manager.Section.hub (.adopt id subject)).Silent := trivial
  apply quiet_then (Manager.quietly_get adopts) _ fun _ => rfl
  intro _
  refine ⟨⟨follows.1 label, nofun⟩, fun slot => ?_⟩
  have slotted : exchanges.next stage (.manager process label (.hub (.slot id)))
      slot = ⟨stage.owned, .slotted message process id slot⟩ := by
    show (⟨stage.owned, _⟩ : Stage) = _
    rw [follows.2]
  show Script.Obeys (sections process label) _ (exchanges.next stage
    (.manager process label (.hub (.slot id))) slot) _
  rw [slotted]
  refine ⟨⟨⟨rfl, rfl, rfl⟩, nofun⟩, fun receiver => ?_⟩
  have releases : (Manager.Section.hub (.release slot)).Silent := trivial
  apply get_then releases
  intro _
  rfl

theorem send_obeys {subject text : String} {id : SessionId}
    {token : Option String} {watch : Option (MatrixMessage × Subscription)}
    (begins : ∀ label, stage.phase.Allows (.manager process label (.tryBegin id)))
    (permits : ∀ label (permit : ℕ),
      stage.phase.next (.manager process label (.tryBegin id)) (.ok permit) =
        .permitted watch process id permit)
    (refuses : ∀ label error,
      stage.phase.next (.manager process label (.tryBegin id)) (.error error) =
        stage.phase) :
    Script.Obeys (sections process label) (Manager.send subject id text token)
      stage fun after result =>
        match result with
        | .ok () => ∃ turn : Manager.Turn, after = ⟨stage.owned,
            watch.elim .calm fun watch =>
              .waiting watch.1 process turn watch.2⟩
        | .error _ => after = stage := by
  apply quiet_then (Manager.quietly_principal subject) _ fun _ => rfl
  intro caller
  apply quiet_then (Manager.quietly_readable subject id) _ fun _ => rfl
  intro state
  have closes : (Manager.Section.isClosed id).Silent := trivial
  apply quiet_then (Manager.quietly_get closes) _ fun _ => rfl
  intro closed
  cases closed with
  | true => rfl
  | false =>
      refine ⟨⟨begins label, nofun⟩, fun begun => ?_⟩
      cases begun with
      | error error =>
          show (⟨stage.owned, _⟩ : Stage) = stage
          rw [refuses]
      | ok permit =>
          have permitted : exchanges.next stage
              (.manager process label (.tryBegin id)) (.ok permit) =
                ⟨stage.owned, .permitted watch process id permit⟩ := by
            show (⟨stage.owned, _⟩ : Stage) = _
            rw [permits]
          show Script.Obeys (sections process label) _ (exchanges.next stage
            (.manager process label (.tryBegin id)) (.ok permit)) _
          rw [permitted]
          have reads : Manager.Section.now.Silent := trivial
          apply get_then reads
          intro now
          have touches : (Manager.Section.touch subject id now).Silent := trivial
          apply get_then touches
          intro entry
          have forgets : (Manager.Section.forget entry).Silent := trivial
          apply get_then forgets
          intro _
          have lowers : (Manager.Section.lower entry).Silent := trivial
          apply get_then lowers
          intro _
          exact ⟨⟨⟨rfl, rfl, rfl⟩, nofun⟩, fun _ => ⟨_, rfl⟩⟩

theorem emitAll_obeys {turn : Manager.Turn} {ends : Stage →
      Except LymailleError Unit → Prop} {rest : Manager.Code Unit}
    {owned : List (ℕ × Subscription)} (kinds : List EventKind)
    (after : Script.Obeys (sections process (some turn)) rest
      ⟨owned, .turning process turn⟩ ends) :
    Script.Obeys (sections process (some turn))
      (Manager.emitAll turn.session kinds >>= fun _ => rest :
        Manager.Code Unit) ⟨owned, .turning process turn⟩ ends := by
  induction kinds with
  | nil => exact after
  | cons kind kinds induction =>
      have reads : Manager.Section.now.Silent := trivial
      apply get_then reads
      intro at_
      have audits : ∀ event, (Manager.Section.hub (.audit event)).Silent :=
        fun _ => trivial
      apply get_then (audits _)
      intro _
      exact ⟨⟨⟨rfl, rfl, rfl⟩, nofun⟩, fun _ => induction⟩

theorem runTurn_obeys (process : ℕ) (turn : Manager.Turn)
    (owned : List (ℕ × Subscription)) :
    Script.Obeys (sections process (some turn)) (Manager.runTurn turn)
      ⟨owned, .turning process turn⟩ fun _ _ => True := by
  have releases : Script.Obeys (sections process (some turn))
      (Manager.get (.release turn.session turn.permit))
      ⟨owned, .turning process turn⟩ fun _ _ => True :=
    ⟨⟨⟨rfl, rfl, rfl⟩, nofun⟩, fun _ => trivial⟩
  have assembles : (Manager.Section.assemble turn.caller turn.kind turn.agentId
      turn.session turn.token).Silent := trivial
  apply get_then assembles
  intro assembled
  cases assembled with
  | error error => exact releases
  | ok assembled =>
      have publishes : (Manager.Section.publish turn.entry
          assembled.cancel).Silent := trivial
      apply get_then publishes
      intro _
      have asks : (Manager.Section.requested turn.entry).Silent := trivial
      apply get_then asks
      intro requested
      have runs : (Manager.Section.runTurn assembled.cancel turn.text).Silent :=
        trivial
      have ended : (Manager.Section.turnEnded turn assembled.cancel).Silent :=
        trivial
      have emits : ∀ events, Script.Obeys (sections process (some turn))
          (Manager.emitAll turn.session events >>= fun _ => do
            Manager.get (.turnEnded turn assembled.cancel)
            Manager.get (.release turn.session turn.permit) :
              Manager.Code Unit) ⟨owned, .turning process turn⟩
          fun _ _ => True := by
        intro events
        apply emitAll_obeys
        apply get_then ended
        intro _
        exact releases
      cases requested with
      | true =>
          have cancels : (Manager.Section.cancelHandle
              assembled.cancel).Silent := trivial
          apply get_then cancels
          intro _
          apply get_then runs
          exact emits
      | false =>
          apply get_then runs
          exact emits

/-- The calls on a manager from elsewhere keep to the stages. -/
theorem manager_obeys (process : ℕ) (call : Manager.Call) :
    (program config (.manager process call)).Obeys exchanges
      (exchanges.start (.manager process call)) fun _ _ => True := by
  have answering : ∀ {α : Type} {code : Manager.Code α}
      {answer : Except LymailleError α → Manager.Answer} {stage : Stage}
      {label : Option Manager.Turn},
      Script.Obeys (sections process label) code stage (fun _ _ => True) →
      Script.Obeys (sections process label) (Manager.answering answer code)
        stage fun _ _ => True :=
    fun obeys => Script.Obeys.bind (obeys.mono fun _ _ _ => trivial)
  have quiet : ∀ {α : Type} {code : Manager.Code α} {stage : Stage}
      {label : Option Manager.Turn}, Manager.Quietly code →
      Script.Obeys (sections process label) code stage fun _ _ => True :=
    fun only => (quiet_obeys only).mono fun _ _ _ => trivial
  apply Script.Obeys.bind
  apply Script.obeys_lift
  cases call with
  | open_ subject context agent =>
      exact answering (quiet (Manager.quietly_open _ _ _ _))
  | send subject id text token =>
      have begins : ∀ label, Phase.calm.Allows
          (.manager process label (.tryBegin id)) := fun _ => trivial
      apply answering
      exact (@send_obeys _ _ ⟨[], .calm⟩ _ _ _ _ none begins (fun _ _ => rfl)
        fun _ _ => rfl).mono fun _ _ _ => trivial
  | turn turn =>
      exact answering (runTurn_obeys process turn [])
  | subscribe subject id =>
      have follows : Follows .calm process id none :=
        ⟨fun _ => trivial, fun _ _ => rfl⟩
      apply answering
      exact (@subscribe_obeys _ _ ⟨[], .calm⟩ _ _ _ follows).mono
        fun _ _ _ => trivial
  | cancel subject id => exact answering (quiet (Manager.quietly_cancel _ _))
  | resume subject id => exact answering (quiet (Manager.quietly_resume _ _))
  | close subject id => exact answering (quiet (Manager.quietly_close _ _))

theorem managed_obeys {α β : Type} {code : Manager.Code α}
    {next : Except LymailleError α → Code β}
    {ends : Stage → Except String β → Prop}
    (obeys : Script.Obeys (sections process none) code stage
      fun after result => Script.Obeys exchanges (next result) after ends) :
    Script.Obeys exchanges (managed process code >>= next : Code β) stage
      ends := by
  apply Query.obeys_bind
  apply Script.Obeys.bind
  exact Script.obeys_lift obeys

theorem plain_managed {α : Type} {code : Manager.Code α}
    (quiet : Manager.Quietly code) :
    Query.Only Request.Plain (managed process code) := by
  have inside : ∀ section_ : Manager.Section, section_.Silent →
      Request.Plain (.manager process none section_) := fun _ silent => silent
  exact (Script.Only.lift _ quiet inside).bind fun _ => trivial

/-- The task keeps the subscriptions that it had. -/
def Runs (code : Code Unit) (stage : Stage) : Prop :=
  Script.Obeys exchanges code stage
    fun after _ => ∀ used ∈ stage.owned, used ∈ after.owned

theorem runs_of_same {code : Code Unit}
    (obeys : Script.Obeys exchanges code stage fun after _ => after = stage) :
    Runs code stage :=
  obeys.mono fun _ _ same => by
    subst same
    exact fun _ owned => owned

theorem runs_spoken {code : Code Unit} {message : MatrixMessage}
    (only : Query.Only Request.Spoken code)
    (isOpen : stage.phase.Open message) : Runs code stage :=
  runs_of_same (spoken_obeys only isOpen)

theorem runs_plain {α : Type} {code : Code α} {next : α → Code Unit}
    (plain : Query.Only Request.Plain code)
    (rest : ∀ value, Runs (next value) stage) :
    Runs (code >>= next) stage := by
  apply Query.obeys_bind
  apply (plain_obeys plain stage).mono
  intro after result same
  subst same
  cases result with
  | ok value => exact rest value
  | error error => exact fun _ owned => owned

theorem runs_dire {message : MatrixMessage} {texte : String}
    (isOpen : stage.phase.Open message) (roomId : String) :
    Runs (dire roomId texte) stage :=
  runs_spoken (only_dire (fun _ _ => Or.inr ⟨_, _, _, rfl⟩) texte) isOpen

theorem follows_of_open {message : MatrixMessage} {phase : Phase}
    (isOpen : phase.Open message) (process : ℕ) (id : SessionId) :
    Follows phase process id (some message) := by
  cases phase with
  | handling other =>
      obtain rfl : other = message := isOpen
      exact ⟨fun _ => trivial, fun _ _ => rfl⟩
  | listening other process' id' subscription =>
      obtain rfl : other = message := isOpen
      exact ⟨fun _ => trivial, fun _ _ => rfl⟩
  | _ => exact isOpen.elim

/-- What a message does under a subscription that it makes. -/
theorem runs_subscribed {message : MatrixMessage} {sujet : String}
    {id : SessionId} {code : Subscription → Code Unit}
    (isOpen : stage.phase.Open message)
    (runs : ∀ subscription, Runs (code subscription)
      (subscribedStage stage process id (some message) subscription)) :
    Runs (do
      let abonnement ← abonner process sujet id
      subscribed process abonnement (code abonnement)) stage := by
  unfold abonner
  apply Query.obeys_bind
  apply managed_obeys
  apply (subscribe_obeys (follows_of_open isOpen process id)).mono
  intro after result reached
  cases result with
  | error error =>
      subst reached
      exact fun _ owned => owned
  | ok subscription =>
      subst reached
      apply Query.obeys_bind
      apply Script.Obeys.bind
      apply (runs subscription).mono
      intro after result keeps
      refine ⟨⟨trivial, ?_⟩, fun _ => ?_⟩
      · intro used uses
        cases uses
        exact keeps _ List.mem_cons_self
      · cases result with
        | ok value =>
            exact fun used owned => keeps used (List.mem_cons_of_mem _ owned)
        | error error =>
            exact fun used owned => keeps used (List.mem_cons_of_mem _ owned)

theorem envoyerParties_obeys {roomId eventId : String}
    {owned : List (ℕ × Subscription)} (parties : List String) (rang : ℕ) :
    Script.Obeys exchanges (envoyerParties roomId eventId rang parties)
      ⟨owned, .answering (ranked roomId eventId rang parties)⟩
      fun after _ => after.owned = owned := by
  induction parties generalizing rang with
  | nil => rfl
  | cons partie parties induction =>
      refine ⟨⟨rfl, nofun⟩, fun sent => ?_⟩
      cases sent with
      | error panne => rfl
      | ok sent => exact induction (rang + 1)

theorem repondre_obeys {message : MatrixMessage}
    {owned : List (ℕ × Subscription)} (ended : End) :
    Script.Obeys exchanges
      (repondre message.roomId message.eventId ended.response ended.outcome)
      ⟨owned, .answering (answer message ended)⟩
      fun after _ => after.owned = owned := by
  obtain ⟨outcome, response⟩ := ended
  cases outcome with
  | valid => exact envoyerParties_obeys _ 0
  | failed => exact ⟨⟨rfl, nofun⟩, fun _ => rfl⟩
  | cancelled => exact ⟨⟨rfl, nofun⟩, fun _ => rfl⟩

theorem collecte_obeys {message : MatrixMessage} {turn : Manager.Turn}
    {subscription : Subscription} {owned : List (ℕ × Subscription)}
    (mine : (process, subscription) ∈ owned) (reads : ℕ) :
    Script.Obeys exchanges
      (collecte process subscription message.roomId message.eventId reads)
      ⟨owned, .waiting message process turn subscription⟩
      fun after _ => after.owned = owned := by
  induction reads with
  | zero =>
      have plain : Request.Plain .stall := trivial
      exact ⟨⟨plain_allowed plain, nofun⟩, fun _ => rfl⟩
  | succ reads induction =>
      refine ⟨⟨⟨rfl, rfl⟩, ?_⟩, fun received => ?_⟩
      · intro used uses
        cases uses
        exact mine
      match received with
      | .ok ⟨session, at_, kind⟩ =>
          cases kind with
          | turnEnded turn outcome response =>
              exact repondre_obeys ⟨outcome, response⟩
          | _ => exact induction
      | .error (.lagged _) => exact induction
      | .error .closed => rfl

/-- A message that listens sends its text, and goes on with the result. -/
theorem runs_send {message : MatrixMessage} {sujet text : String}
    {id : SessionId} {subscription : Subscription}
    {owned : List (ℕ × Subscription)}
    {next : Except LymailleError Unit → Code Unit}
    (sent : ∀ turn, Runs (next (.ok ()))
      ⟨owned, .waiting message process turn subscription⟩)
    (refused : ∀ error, Runs (next (.error error))
      ⟨owned, .listening message process id subscription⟩) :
    Runs (managed process (Manager.send sujet id text none) >>= next)
      ⟨owned, .listening message process id subscription⟩ := by
  apply managed_obeys
  have begins : ∀ label,
      (Phase.listening message process id subscription).Allows
        (.manager process label (.tryBegin id)) := fun _ => ⟨rfl, rfl⟩
  apply (@send_obeys _ _ ⟨owned, .listening message process id subscription⟩
    _ _ _ _ (some (message, subscription)) begins (fun _ _ => rfl)
    fun _ _ => rfl).mono
  intro after result reached
  cases result with
  | ok _ =>
      obtain ⟨turn, rfl⟩ := reached
      exact sent turn
  | error error =>
      subst reached
      exact refused error

variable {message : MatrixMessage} {reads : ℕ} {sujet : String}

theorem runs_ouvrirALaDemande (isOpen : stage.phase.Open message) :
    Runs (ouvrirALaDemande config process reads sujet message) stage := by
  have resolves : Request.Plain (.resolveRoom message.roomId) := trivial
  apply runs_plain (only_ask resolves)
  intro contexte
  cases contexte with
  | none => exact runs_dire isOpen _
  | some contexte =>
      apply runs_plain (plain_managed (Manager.quietly_open _ _ _ _))
      intro anse
      cases anse with
      | error erreur => exact runs_dire isOpen _
      | ok anse =>
          have updates : ∀ row, Request.Plain (.updateRoom message.roomId row) :=
            fun _ => trivial
          have inserts : ∀ row, Request.Plain (.insertRoom message.roomId row) :=
            fun _ => trivial
          apply runs_plain (only_ecrireSalle updates inserts)
          intro _
          apply runs_subscribed isOpen
          intro abonnement
          apply runs_send
          · intro turn
            exact (collecte_obeys List.mem_cons_self reads).mono
              fun _ _ same used owned => same ▸ owned
          · intro error
            exact fun _ owned => owned

theorem runs_texteLibre (isOpen : stage.phase.Open message)
    (session : Option SessionId) :
    Runs (texteLibre config process reads sujet session message) stage := by
  cases session with
  | none => exact runs_ouvrirALaDemande isOpen
  | some id =>
      apply runs_subscribed isOpen
      intro abonnement
      have listening : (subscribedStage stage process id (some message)
          abonnement).phase.Open message := rfl
      have collects : ∀ turn, Runs
          (collecte process abonnement message.roomId message.eventId reads)
          ⟨(process, abonnement) :: stage.owned,
            .waiting message process turn abonnement⟩ := by
        intro turn
        exact (collecte_obeys List.mem_cons_self reads).mono
          fun _ _ same used owned => same ▸ owned
      apply runs_send collects
      intro erreur
      cases erreur with
      | notFound text =>
          apply runs_plain (plain_managed (Manager.quietly_resume _ _))
          intro resumed
          cases resumed with
          | error erreur => exact runs_ouvrirALaDemande listening
          | ok anse =>
              apply runs_send collects
              intro again
              cases again <;> exact runs_dire listening _
      | _ => exact runs_dire listening _

/-- What a command says is no answer. -/
theorem spoken_nouvelleSession {roomId reste : String}
    (session : Option SessionId) :
    Query.Only Request.Spoken
      (nouvelleSession config process sujet roomId reste session) := by
  have manages : ∀ {α : Type} {code : Manager.Code α}, Manager.Quietly code →
      Query.Only Request.Spoken (managed process code) :=
    fun quiet => Script.Only.mono (plain_managed quiet) fun _ => Or.inl
  have speaks : ∀ texte, Query.Only Request.Spoken (dire roomId texte) :=
    only_dire fun _ _ => Or.inr ⟨_, _, _, rfl⟩
  apply Query.Only.bind
  · unfold contexteNouveau
    split
    · exact .pure _
    apply Query.Only.bind
    · cases session with
      | none => exact .pure _
      | some id =>
          have reads : Request.Spoken (.readContext sujet id) := Or.inl trivial
          exact only_demand reads _
    intro ferme
    cases ferme with
    | none =>
        have resolves : Request.Spoken (.resolveRoom roomId) := Or.inl trivial
        exact only_ask resolves
    | some contexte => exact .pure _
  intro contexte
  apply Query.Only.bind
  · cases session with
    | none => exact .pure _
    | some id =>
        exact Query.Only.bind (manages (Manager.quietly_close _ _))
          fun _ => .pure _
  intro _
  cases contexte with
  | none => exact speaks _
  | some contexte =>
      apply Query.Only.bind (manages (Manager.quietly_open _ _ _ _))
      intro anse
      cases anse with
      | error erreur => exact speaks _
      | ok anse =>
          apply Query.Only.bind
          · exact only_ecrireSalle (fun _ => Or.inl trivial)
              fun _ => Or.inl trivial
          intro _
          exact speaks _

theorem spoken_reprendre {roomId : String} (session : Option SessionId) :
    Query.Only Request.Spoken (reprendre process sujet roomId session) := by
  have speaks : ∀ texte, Query.Only Request.Spoken (dire roomId texte) :=
    only_dire fun _ _ => Or.inr ⟨_, _, _, rfl⟩
  cases session with
  | none => exact speaks _
  | some id =>
      apply Query.Only.bind (Script.Only.mono
        (plain_managed (Manager.quietly_resume _ _)) fun _ => Or.inl)
      intro anse
      cases anse with
      | error erreur => exact speaks _
      | ok anse =>
          apply Query.Only.bind
          · exact only_ecrireSalle (fun _ => Or.inl trivial)
              fun _ => Or.inl trivial
          intro _
          exact speaks _

theorem spoken_annuler {roomId : String} (session : Option SessionId) :
    Query.Only Request.Spoken (annuler process sujet roomId session) := by
  apply Query.Only.bind
  · cases session with
    | none => exact .pure _
    | some id =>
        apply Query.Only.bind (Script.Only.mono
          (plain_managed (Manager.quietly_cancel _ _)) fun _ => Or.inl)
        intro result
        exact .done _
  intro actif
  split
  · exact .pure _
  · exact only_dire (fun _ _ => Or.inr ⟨_, _, _, rfl⟩) _

theorem runs_commander {body : List Char} {appelant : CallerPrincipal}
    (isOpen : stage.phase.Open message) (session : Option SessionId) :
    Runs (commander config process reads message body sujet appelant session)
      stage := by
  unfold commander
  split
  · dsimp only
    split
    · exact runs_dire isOpen _
    split
    · exact runs_spoken (spoken_nouvelleSession session) isOpen
    split
    · exact runs_spoken (spoken_annuler session) isOpen
    split
    · exact runs_spoken (spoken_reprendre session) isOpen
    split
    · exact runs_spoken (only_activer (fun _ _ => Or.inr ⟨_, _, _, rfl⟩)
        (Or.inl trivial)) isOpen
    · exact fun _ owned => owned
  · exact runs_texteLibre isOpen session

theorem runs_recevoir {body : List Char} {appelant : CallerPrincipal}
    (isOpen : stage.phase.Open message) :
    Runs (recevoir config process reads message body sujet appelant) stage := by
  have asks : Request.Plain (.readRoom message.roomId) := trivial
  apply runs_plain (only_lireSalle asks)
  intro salle
  cases salle with
  | none => exact runs_commander isOpen none
  | some salle =>
      dsimp only
      split
      · have warns : Request.Plain (.warn process message.roomId) := trivial
        apply runs_plain (only_ask warns)
        intro premiere
        cases premiere with
        | false => exact fun _ owned => owned
        | true => exact runs_dire isOpen _
      · exact runs_commander isOpen salle.session

theorem runs_traiter {nowMs : ℕ} (isOpen : stage.phase.Open message) :
    Runs (traiter config process reads message nowMs) stage := by
  have invited : Runs (inviter process message.roomId nowMs) stage :=
    runs_spoken (only_inviter (fun _ _ => Or.inr ⟨_, _, _, rfl⟩)
      (Or.inl trivial)) isOpen
  unfold traiter
  dsimp only
  split
  · exact runs_spoken (only_liaison (fun _ _ => Or.inr ⟨_, _, _, rfl⟩)
      (Or.inl trivial) fun _ => Or.inl trivial) isOpen
  have resolves : Request.Plain (.resolveLink message.sender) := trivial
  apply runs_plain (only_ask resolves)
  intro linked
  match linked with
  | .error erreur => exact fun _ owned => owned
  | .ok none => exact invited
  | .ok (some sujet) =>
      have identifies : Request.Plain (.resolveIdentity sujet) := trivial
      apply @runs_plain _ _ _ _ (only_ask identifies)
      intro appelant
      cases appelant with
      | error erreur => exact invited
      | ok appelant => exact runs_recevoir isOpen

theorem runs_dispatcher :
    Runs (dispatcher config process reads message) ⟨[], .arrived⟩ := by
  unfold dispatcher
  split
  · exact nofun
  have reads' : Request.Plain (.clock message) := trivial
  apply runs_plain (only_ask reads')
  intro nowMs
  have now : Request.Plain .utcNow := trivial
  have marks : ∀ seenAt, Request.Plain (.markSeen message.eventId seenAt) :=
    fun _ => trivial
  apply runs_plain (only_marquerVu now marks)
  intro nouveau
  cases nouveau with
  | false => exact nofun
  | true =>
      have loads : Request.Plain (.loadPurge process) := trivial
      have exchanges' : ∀ current new,
          Request.Plain (.exchangePurge process current new) :=
        fun _ _ => trivial
      have deletes : ∀ before, Request.Plain (.deleteSeen before) :=
        fun _ => trivial
      have purges : ∀ instant, Request.Plain (.purgeExpired instant) :=
        fun _ => trivial
      apply runs_plain (only_purgeOpportune loads exchanges' now deletes purges)
      intro _
      dsimp only
      split
      · exact nofun
      refine ⟨⟨trivial, nofun⟩, fun _ => ?_⟩
      have handling : (Phase.handling message).Open message := rfl
      exact @runs_traiter _ _ ⟨[], .handling message⟩ _ _ _ handling

end Sections

theorem lireEvenements_obeys {process : ℕ} {abonnement : Subscription}
    {owned : List (ℕ × Subscription)} (mine : (process, abonnement) ∈ owned)
    (reads : ℕ) :
    Script.Obeys exchanges (lireEvenements process abonnement reads)
      ⟨owned, .calm⟩ fun after _ => after = ⟨owned, .calm⟩ := by
  induction reads with
  | zero => rfl
  | succ reads induction =>
      refine ⟨⟨trivial, ?_⟩, fun _ => induction⟩
      intro used uses
      cases uses
      exact mine

theorem listen_obeys (process reads : ℕ) (subject : String) (id : SessionId) :
    Script.Obeys exchanges (ecouter process reads subject id) ⟨[], .calm⟩
      fun _ _ => True := by
  have follows : Follows Phase.calm process id none :=
    ⟨fun _ => trivial, fun _ _ => rfl⟩
  apply Query.obeys_bind
  apply managed_obeys
  apply (@subscribe_obeys _ _ ⟨[], .calm⟩ _ _ _ follows).mono
  intro after result reached
  cases result with
  | error error => trivial
  | ok abonnement =>
      subst reached
      apply Query.obeys_bind
      apply Script.Obeys.bind
      apply (lireEvenements_obeys List.mem_cons_self reads).mono
      intro after result same
      subst same
      refine ⟨⟨trivial, ?_⟩, fun _ => ?_⟩
      · intro used uses
        cases uses
        exact List.mem_cons_self
      · cases result <;> trivial

theorem program_obeys (call : Call) :
    (program config call).Obeys exchanges (exchanges.start call)
      (exchanges.ends call) := by
  cases call with
  | deliver process reads message =>
      exact (runs_dispatcher).mono fun _ _ _ => trivial
  | manager process call => exact manager_obeys process call
  | listen process reads subject id =>
      exact listen_obeys process reads subject id

end MiryadCore.Chat.Bridging.Answers
