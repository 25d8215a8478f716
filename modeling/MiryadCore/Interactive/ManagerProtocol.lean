import MiryadCore.Interactive.ManagerRequests

/-!
# The stages of the calls on the manager

Which sections a call makes, in which order, whatever it is answered.  The
reads of a call and its requests to the hub do not change its stage.
-/

namespace MiryadCore.Interactive.Manager

variable {parts : Parts}

inductive Call where
  | open_ (subject context : String) (agent : Option String)
  | send (subject : String) (id : SessionId) (text : String)
      (token : Option String)
  | turn (turn : Turn)
  | subscribe (subject : String) (id : SessionId)
  | cancel (subject : String) (id : SessionId)
  | resume (subject : String) (id : SessionId)
  | close (subject : String) (id : SessionId)

/-- What the calls return. -/
inductive Answer where
  | opened (result : Except LymailleError SessionHandle)
  | sent (result : Except LymailleError Unit)
  | turned (result : Except LymailleError Unit)
  | subscribed (result : Except LymailleError Subscription)
  | cancelled (result : Except LymailleError Bool)
  | resumed (result : Except LymailleError SessionHandle)
  | closed (result : Except LymailleError Unit)

def answering {α : Type} (answer : Except LymailleError α → Answer)
    (code : Code α) : Script Section Section.Reply Answer :=
  Script.bind code fun result => .done (answer result)

def program (limits : Limits) : Call → Script Section Section.Reply Answer
  | .open_ subject context agent =>
      answering .opened (open_ limits.maxOpenPerUser subject context agent)
  | .send subject id text token => answering .sent (send subject id text token)
  | .turn turn => answering .turned (runTurn turn)
  | .subscribe subject id => answering .subscribed (subscribe subject id)
  | .cancel subject id => answering .cancelled (cancel subject id)
  | .resume subject id => answering .resumed (resume subject id)
  | .close subject id => answering .closed (close subject id)

/-- `tokio::spawn`. -/
def spawns : Section → Option Call
  | .spawn turn => some (.turn turn)
  | _ => none

/-- Calls on the manager that run beside each other. -/
def system (parts : Parts) (limits : Limits) :
    System Call Section Section.Reply Conditions (Manager parts) Answer where
  program := program limits
  exec := exec
  ready := ready
  spawns := spawns

/-- A call from outside: a turn is only started by `send`. -/
def Outside : Call → Prop
  | .turn _ => False
  | _ => True

/-- A section of a call on the manager, as it took place. -/
abbrev Passage (parts : Parts) :=
  Occurrence Section Section.Reply (Manager parts)

abbrev Trace (parts : Parts) := List (Passage parts)

inductive Stage where
  | free
  | opening
  | checked (id : SessionId)
  | permitted (id : SessionId) (permit : ℕ)
  | touched (id : SessionId) (permit entry : ℕ)
  | forgotten (id : SessionId) (permit entry : ℕ)
  | lowered (id : SessionId) (permit entry : ℕ)
  | begun (id : SessionId) (permit entry : ℕ)
  | assembled (id : SessionId) (permit entry handle : ℕ)
  | published (id : SessionId) (permit entry handle : ℕ)
  | asked (id : SessionId) (permit entry handle : ℕ) (requested : Bool)
  | running (id : SessionId) (permit entry handle : ℕ)
  | finished (id : SessionId) (permit : ℕ)
  | saw (id : SessionId)
  | signalling (id : SessionId) (entry : ℕ)
  | signalled (id : SessionId)
  | reopened (id : SessionId)

/-- The sections that leave the table, the gate, the entries and the handles
as they are. -/
def Section.Passive : Section → Prop
  | .account _ | .admin _ | .load _ _ | .hostContext _ _ | .agent _ _
  | .visibleContextType _ _ _ | .contextType _ | .resolveStart _ _
  | .activeToolset _ _ | .uuid | .now | .save _ _ | .stampContext _ _ _
  | .readContextColumn _ _ | .hub _ | .count _ => True
  | _ => False

/-- The sections that a task may make at a stage, the passive ones apart. -/
def Stage.Active : Stage → Section → Prop
  | .free, .isClosed _ => True
  | .free, .isActive _ => True
  | .free, .assemble _ _ _ _ _ => True
  | .free, .reopen _ => True
  | .free, .closeTable _ => True
  | .signalled _, .closeTable _ => True
  | .opening, .touch _ _ _ => True
  | .checked id, .tryBegin other => other = id
  | .permitted id _, .touch _ other _ => other = id
  | .touched _ _ entry, .forget other => other = entry
  | .forgotten _ _ entry, .lower other => other = entry
  | .lowered id permit entry, .spawn turn =>
      turn.session = id ∧ turn.permit = permit ∧ turn.entry = entry
  | .begun id _ _, .assemble _ _ _ session _ => session = id
  | .assembled _ _ entry handle, .publish other given =>
      other = entry ∧ given = handle
  | .published _ _ entry _, .requested other => other = entry
  | .asked _ _ _ handle requested, .cancelHandle other =>
      requested = true ∧ other = handle
  | .asked _ _ _ handle requested, .runTurn other _ =>
      requested = false ∧ other = handle
  | .running _ _ _ handle, .runTurn other _ => other = handle
  | .running id permit entry handle, .turnEnded turn other =>
      turn.session = id ∧ turn.permit = permit ∧ turn.entry = entry ∧
        other = handle
  | .finished id permit, .release other given => other = id ∧ given = permit
  | .saw id, .entryOf other => other = id
  | .signalling _ entry, .signal other => other = entry
  | .reopened id, .touch _ other _ => other = id
  | _, _ => False

def Stage.next : Stage → (request : Section) → request.Reply → Stage
  | .free, .isClosed id, closed => if closed then .free else .checked id
  | .free, .isActive id, active => if active then .saw id else .free
  | .free, .reopen id, _ => .reopened id
  | .checked id, .tryBegin _, .ok permit => .permitted id permit
  | .checked _, .tryBegin _, .error _ => .free
  | .permitted id permit, .touch _ _ _, entry => .touched id permit entry
  | .touched id permit entry, .forget _, _ => .forgotten id permit entry
  | .forgotten id permit entry, .lower _, _ => .lowered id permit entry
  | .lowered _ _ _, .spawn _, _ => .free
  | .begun id permit entry, .assemble _ _ _ _ _, .ok made =>
      .assembled id permit entry made.cancel
  | .begun id permit _, .assemble _ _ _ _ _, .error _ => .finished id permit
  | .assembled id permit entry handle, .publish _ _, _ =>
      .published id permit entry handle
  | .published id permit entry handle, .requested _, requested =>
      .asked id permit entry handle requested
  | .asked id permit entry handle _, .cancelHandle _, _ =>
      .running id permit entry handle
  | .asked id permit entry handle _, .runTurn _ _, _ =>
      .running id permit entry handle
  | .running id permit _ _, .turnEnded _ _, _ => .finished id permit
  | .finished _ _, .release _ _, _ => .free
  | .saw id, .entryOf _, some entry => .signalling id entry
  | .saw id, .entryOf _, none => .signalled id
  | .signalling id _, .signal _, _ => .signalled id
  | .reopened _, .touch _ _ _, _ => .free
  | stage, _, _ => stage

/-- A cancellation is only reported after a signal, if there was an entry. -/
def ends : Call → Stage → Answer → Prop
  | .cancel _ id, stage, .cancelled (.ok true) => stage = .signalled id
  | _, _, _ => True

def protocol : Protocol Call Section Section.Reply Answer Stage where
  start
    | .open_ _ _ _ => .opening
    | .turn turn => .begun turn.session turn.permit turn.entry
    | _ => .free
  allows stage request := request.Passive ∨ stage.Active request
  next := Stage.next
  ends := ends

/-- The permit that a task has at a stage. -/
def Stage.permit : Stage → Option ℕ
  | .permitted _ permit | .touched _ permit _ | .forgotten _ permit _
  | .lowered _ permit _ | .begun _ permit _ | .assembled _ permit _ _
  | .published _ permit _ _ | .asked _ permit _ _ _ | .running _ permit _ _
  | .finished _ permit => some permit
  | _ => none

section Allowed

variable {stage : Stage} {id : SessionId}

theorem stage_of_touch {subject : String} {now : ℕ}
    (allowed : protocol.allows stage (.touch subject id now)) :
    stage = .opening ∨ (∃ permit, stage = .permitted id permit) ∨
      stage = .reopened id := by
  rcases allowed with passive | active
  · exact passive.elim
  · cases stage with
    | opening => exact .inl rfl
    | permitted other permit =>
        cases active
        exact .inr (.inl ⟨permit, rfl⟩)
    | reopened other =>
        cases active
        exact .inr (.inr rfl)
    | _ => exact active.elim

theorem stage_of_tryBegin (allowed : protocol.allows stage (.tryBegin id)) :
    stage = .checked id := by
  rcases allowed with passive | active
  · exact passive.elim
  · cases stage with
    | checked other =>
        cases active
        rfl
    | _ => exact active.elim

theorem stage_of_forget {entry : ℕ}
    (allowed : protocol.allows stage (.forget entry)) :
    ∃ id permit, stage = .touched id permit entry := by
  rcases allowed with passive | active
  · exact passive.elim
  · cases stage with
    | touched id permit other =>
        cases active
        exact ⟨id, permit, rfl⟩
    | _ => exact active.elim

theorem stage_of_lower {entry : ℕ}
    (allowed : protocol.allows stage (.lower entry)) :
    ∃ id permit, stage = .forgotten id permit entry := by
  rcases allowed with passive | active
  · exact passive.elim
  · cases stage with
    | forgotten id permit other =>
        cases active
        exact ⟨id, permit, rfl⟩
    | _ => exact active.elim

theorem stage_of_spawn {turn : Turn}
    (allowed : protocol.allows stage (.spawn turn)) :
    stage = .lowered turn.session turn.permit turn.entry := by
  rcases allowed with passive | active
  · exact passive.elim
  · cases stage with
    | lowered id permit entry =>
        obtain ⟨sameId, samePermit, sameEntry⟩ := active
        rw [sameId, samePermit, sameEntry]
    | _ => exact active.elim

theorem stage_of_publish {entry handle : ℕ}
    (allowed : protocol.allows stage (.publish entry handle)) :
    ∃ id permit, stage = .assembled id permit entry handle := by
  rcases allowed with passive | active
  · exact passive.elim
  · cases stage with
    | assembled id permit other given =>
        obtain ⟨sameEntry, sameHandle⟩ := active
        rw [sameEntry, sameHandle]
        exact ⟨id, permit, rfl⟩
    | _ => exact active.elim

theorem stage_of_cancelHandle {handle : ℕ}
    (allowed : protocol.allows stage (.cancelHandle handle)) :
    ∃ id permit entry, stage = .asked id permit entry handle true := by
  rcases allowed with passive | active
  · exact passive.elim
  · cases stage with
    | asked id permit entry given requested =>
        obtain ⟨sameFlag, sameHandle⟩ := active
        rw [sameFlag, sameHandle]
        exact ⟨id, permit, entry, rfl⟩
    | _ => exact active.elim

theorem stage_of_turnEnded {turn : Turn} {handle : ℕ}
    (allowed : protocol.allows stage (.turnEnded turn handle)) :
    stage = .running turn.session turn.permit turn.entry handle := by
  rcases allowed with passive | active
  · exact passive.elim
  · cases stage with
    | running id permit entry given =>
        obtain ⟨sameId, samePermit, sameEntry, sameHandle⟩ := active
        rw [sameId, samePermit, sameEntry, sameHandle]
    | _ => exact active.elim

theorem stage_of_release {permit : ℕ}
    (allowed : protocol.allows stage (.release id permit)) :
    stage = .finished id permit := by
  rcases allowed with passive | active
  · exact passive.elim
  · cases stage with
    | finished other given =>
        obtain ⟨sameId, samePermit⟩ := active
        rw [sameId, samePermit]
    | _ => exact active.elim

end Allowed

/-- The query keeps to the protocol from the stage on, whatever it returns. -/
def Code.Obeys {α : Type} (code : Code α) (stage : Stage)
    (ends : Stage → Except LymailleError α → Prop) : Prop :=
  Script.Obeys protocol code stage ends

theorem next_passive (stage : Stage) {request : Section}
    (passive : request.Passive) (answer : request.Reply) :
    stage.next request answer = stage := by
  cases request <;> first | exact passive.elim | (cases stage <;> rfl)

/-- The code ends at the stage where it began. -/
def Stays {α : Type} (code : Code α) : Prop :=
  ∀ stage, code.Obeys stage fun after _ => after = stage

theorem Stays.pure {α : Type} (value : α) : Stays (Pure.pure value : Code α) :=
  fun _ => rfl

theorem Stays.throw {α : Type} (error : LymailleError) :
    Stays (throw error : Code α) :=
  fun _ => rfl

theorem Stays.ofExcept {α : Type} (result : Except LymailleError α) :
    Stays (Query.ofExcept result : Code α) :=
  fun _ => rfl

theorem Stays.get (request : Section) (passive : request.Passive) :
    Stays (get request) := by
  intro stage
  exact ⟨.inl passive, fun answer => next_passive stage passive answer⟩

theorem Stays.demand {α : Type} (request : Section) (passive : request.Passive)
    (translate : request.Reply → Except LymailleError α) :
    Stays (demand request translate) := by
  intro stage
  exact ⟨.inl passive, fun answer => next_passive stage passive answer⟩

theorem Stays.bind {α β : Type} {code : Code α} {next : α → Code β}
    (stays : Stays code) (after : ∀ value, Stays (next value)) :
    Stays (code >>= next) := by
  intro stage
  apply Query.obeys_bind
  apply (stays stage).mono
  intro reached result same
  subst same
  cases result with
  | ok value => exact after value reached
  | error error => rfl

theorem Stays.attempt {α : Type} {code : Code α} (stays : Stays code) :
    Stays code.attempt := by
  intro stage
  apply Script.Obeys.bind
  exact (stays stage).mono fun reached result same => same

theorem Stays.then {α β : Type} {code : Code α} {next : α → Code β}
    {stage : Stage} {ends : Stage → Except LymailleError β → Prop}
    (stays : Stays code) (after : ∀ value, (next value).Obeys stage ends)
    (fails : ∀ error, ends stage (.error error)) :
    (code >>= next : Code β).Obeys stage ends := by
  apply Query.obeys_bind
  apply (stays stage).mono
  intro reached result same
  subst same
  cases result with
  | ok value => exact after value
  | error error => exact fails error

theorem Asking.stays {α : Type} {code : Code α} (asking : Asking code) :
    Stays code := by
  have passive : ∀ request : Section, request.Asks → request.Passive := by
    intro request asks
    cases request <;> first | exact asks.elim | trivial
  intro stage
  apply Script.Obeys.mono
  · exact Script.Only.obeys asking.only
      (fun request asks => .inl (passive request asks))
      fun request asks answer => next_passive stage (passive request asks) answer
  · exact fun _ _ same => same

theorem stays_principal (subject : String) : Stays (principal subject) :=
  (asking_principal subject).stays

theorem stays_readable (subject : String) (id : SessionId) :
    Stays (readable subject id) :=
  (asking_readable subject id).stays

theorem stays_checkCount (maxOpenPerUser : ℕ) (caller : CallerPrincipal)
    (subject : String) : Stays (checkCount maxOpenPerUser caller subject) := by
  unfold checkCount
  split
  next => exact .pure ()
  next =>
    apply Stays.bind (.get (.count subject) trivial)
    intro count
    split
    next => exact .throw _
    next => exact .pure ()

theorem stays_emitAll (session : SessionId) (kinds : List EventKind) :
    Stays (emitAll session kinds) := by
  induction kinds with
  | nil => exact .pure ()
  | cons kind kinds induction =>
      apply Stays.bind (.get .now trivial)
      intro at_
      apply Stays.bind (.get (.hub (.audit _)) trivial)
      intro _
      apply Stays.bind (.get (.hub (.diffuse session _)) trivial)
      intro _
      exact induction

theorem open_obeys (maxOpenPerUser : ℕ) (subject context : String)
    (agent : Option String) :
    (open_ maxOpenPerUser subject context agent).Obeys .opening
      fun _ _ => True := by
  apply (stays_principal subject).then _ (fun _ => trivial)
  intro caller
  apply (asking_resolveStart caller context agent).stays.then _ (fun _ => trivial)
  intro start
  apply (stays_checkCount maxOpenPerUser caller subject).then _
    (fun _ => trivial)
  intro _
  apply (asking_toolsetVersions subject _).stays.then _ (fun _ => trivial)
  intro versions
  apply Stays.then (.get .uuid trivial) _ (fun _ => trivial)
  intro id
  apply Stays.then (.get .now trivial) _ (fun _ => trivial)
  intro createdAt
  apply Stays.then (.demand (.save _ _) trivial _) _ (fun _ => trivial)
  intro _
  apply Stays.then (.demand (.stampContext subject id context) trivial
    storeError) _ (fun _ => trivial)
  intro _
  apply Stays.then (.get (.hub (.register id subject)) trivial) _
    (fun _ => trivial)
  intro _
  refine ⟨.inl trivial, fun now => ?_⟩
  exact ⟨.inr trivial, fun _ => trivial⟩

theorem send_obeys (subject : String) (id : SessionId) (text : String)
    (token : Option String) :
    (send subject id text token).Obeys .free fun _ _ => True := by
  apply (stays_principal subject).then _ (fun _ => trivial)
  intro caller
  apply (stays_readable subject id).then _ (fun _ => trivial)
  intro state
  refine ⟨.inr trivial, fun closed => ?_⟩
  cases closed with
  | true => trivial
  | false =>
      refine ⟨.inr rfl, fun begun => ?_⟩
      cases begun with
      | error error => trivial
      | ok permit =>
          refine ⟨.inl trivial, fun now => ⟨.inr rfl, fun entry => ?_⟩⟩
          refine ⟨.inr rfl, fun _ => ⟨.inr rfl, fun _ => ?_⟩⟩
          exact ⟨.inr ⟨rfl, rfl, rfl⟩, fun _ => trivial⟩

theorem runTurn_obeys (turn : Turn) :
    (runTurn turn).Obeys (.begun turn.session turn.permit turn.entry)
      fun _ _ => True := by
  refine ⟨.inr rfl, fun assembled => ?_⟩
  cases assembled with
  | error error => exact ⟨.inr ⟨rfl, rfl⟩, fun _ => trivial⟩
  | ok assembled =>
      refine ⟨.inr ⟨rfl, rfl⟩, fun _ => ⟨.inr rfl, fun requested => ?_⟩⟩
      have ran : ∀ events : List EventKind,
          (emitAll turn.session events >>= fun _ => do
            get (.turnEnded turn assembled.cancel)
            get (.release turn.session turn.permit) : Code Unit).Obeys
            (.running turn.session turn.permit turn.entry assembled.cancel)
            fun _ _ => True := by
        intro events
        apply (stays_emitAll turn.session events).then _ (fun _ => trivial)
        intro _
        refine ⟨.inr ⟨rfl, rfl, rfl, rfl⟩, fun _ => ?_⟩
        exact ⟨.inr ⟨rfl, rfl⟩, fun _ => trivial⟩
      cases requested with
      | true =>
          refine ⟨.inr ⟨rfl, rfl⟩, fun _ => ?_⟩
          exact ⟨.inr rfl, fun events => ran events⟩
      | false => exact ⟨.inr ⟨rfl, rfl⟩, fun events => ran events⟩

theorem signal_obeys (id : SessionId) :
    (signal id).Obeys (.saw id) fun stage _ => stage = .signalled id := by
  refine ⟨.inr rfl, fun entry => ?_⟩
  cases entry with
  | none => rfl
  | some entry => exact ⟨.inr rfl, fun _ => rfl⟩

theorem cancel_obeys (subject : String) (id : SessionId) :
    (cancel subject id).Obeys .free fun stage result =>
      result = .ok true → stage = .signalled id := by
  apply (stays_principal subject).then _ (fun _ same => by cases same)
  intro caller
  apply (stays_readable subject id).then _ (fun _ same => by cases same)
  intro state
  refine ⟨.inr trivial, fun active => ?_⟩
  cases active with
  | false => exact fun same => by cases same
  | true =>
      apply Query.obeys_bind
      apply (signal_obeys id).mono
      intro stage result same
      cases result with
      | ok value => exact fun _ => same
      | error error => exact fun differ => by cases differ

theorem resume_obeys (subject : String) (id : SessionId) :
    (resume subject id).Obeys .free fun _ _ => True := by
  apply (stays_principal subject).then _ (fun _ => trivial)
  intro caller
  apply (stays_readable subject id).then _ (fun _ => trivial)
  intro state
  apply Stays.then (.demand (.readContextColumn subject id) trivial
    storeError) _ (fun _ => trivial)
  intro column
  cases column with
  | none => trivial
  | some context =>
      refine ⟨.inr trivial, fun assembled => ?_⟩
      cases assembled with
      | error error => trivial
      | ok assembled =>
          refine ⟨.inl trivial, fun _ => ⟨.inr trivial, fun _ => ?_⟩⟩
          exact ⟨.inl trivial, fun now => ⟨.inr rfl, fun _ => trivial⟩⟩

theorem closeSession_obeys (id : SessionId) :
    (closeSession id).Obeys .free fun _ _ => True := by
  have closes : ∀ stage, stage = .free ∨ stage = .signalled id →
      (do get (.hub (.removeSlot id))
          get (.hub (.removeSubject id))
          get (.closeTable id) : Code Unit).Obeys stage fun _ _ => True := by
    intro stage is
    apply Stays.then (.get (.hub (.removeSlot id)) trivial) _
      (fun _ => trivial)
    intro _
    apply Stays.then (.get (.hub (.removeSubject id)) trivial) _
      (fun _ => trivial)
    intro _
    refine ⟨.inr ?_, fun _ => trivial⟩
    rcases is with free | signalled
    · rw [free]
      trivial
    · rw [signalled]
      trivial
  refine ⟨.inr trivial, fun active => ?_⟩
  cases active with
  | false => exact closes _ (.inl rfl)
  | true =>
      apply Query.obeys_bind
      apply (signal_obeys id).mono
      intro stage result same
      cases result with
      | ok value => exact closes stage (.inr same)
      | error error => trivial

theorem close_obeys (subject : String) (id : SessionId) :
    (close subject id).Obeys .free fun _ _ => True := by
  apply (stays_principal subject).attempt.then _ (fun _ => trivial)
  intro caller
  cases caller with
  | error error => trivial
  | ok caller =>
      apply (stays_readable subject id).attempt.then _ (fun _ => trivial)
      intro state
      cases state with
      | error error => trivial
      | ok state => exact closeSession_obeys id

theorem program_obeys (limits : Limits) (call : Call) :
    (program limits call).Obeys protocol (protocol.start call)
      (protocol.ends call) := by
  cases call with
  | open_ subject context agent =>
      apply Script.Obeys.bind
      apply (open_obeys limits.maxOpenPerUser subject context agent).mono
      exact fun _ _ _ => trivial
  | send subject id text token =>
      apply Script.Obeys.bind
      apply (send_obeys subject id text token).mono
      exact fun _ _ _ => trivial
  | turn turn =>
      apply Script.Obeys.bind
      apply (runTurn_obeys turn).mono
      exact fun _ _ _ => trivial
  | subscribe subject id =>
      have stays : Stays (subscribe subject id) := by
        apply Stays.bind (stays_principal subject)
        intro caller
        apply Stays.bind (stays_readable subject id)
        intro state
        apply Stays.bind (.get (.hub (.adopt id subject)) trivial)
        intro _
        apply Stays.bind (.get (.hub (.slot id)) trivial)
        intro slot
        apply Stays.bind (.get (.hub (.subscribe id slot)) trivial)
        intro receiver
        apply Stays.bind (.get (.hub (.release slot)) trivial)
        intro _
        exact .pure _
      apply Script.Obeys.bind
      apply (stays .free).mono
      exact fun _ _ _ => trivial
  | cancel subject id =>
      apply Script.Obeys.bind
      apply (cancel_obeys subject id).mono
      intro stage result reached
      match result with
      | .ok true => exact reached rfl
      | .ok false => trivial
      | .error error => trivial
  | resume subject id =>
      apply Script.Obeys.bind
      apply (resume_obeys subject id).mono
      exact fun _ _ _ => trivial
  | close subject id =>
      apply Script.Obeys.bind
      apply (close_obeys subject id).mono
      exact fun _ _ _ => trivial

end MiryadCore.Interactive.Manager
