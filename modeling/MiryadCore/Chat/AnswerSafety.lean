import MiryadCore.Chat.AnswerConditions

/-!
# Each message answers with the end of its own turn

What a request does to the gate and to the subscriptions of a process, then
the invariant of the runs that meet the conditions.
-/

namespace MiryadCore.Chat.Bridging.Answers

open Interactive

variable {parts : Parts} {config : ChatConfig} {bridge : Bridge parts}
  {trace : Trace parts} {task process : ℕ} {conditions : Conditions}
  {request : Request}

/-- The passage of a request, answered under conditions. -/
abbrev passed (task : ℕ) (conditions : Conditions) (bridge : Bridge parts)
    (request : Request) : Passage parts :=
  ⟨task, bridge, request, (Bridge.exec conditions bridge request).1⟩

/-- The bridge after a request. -/
abbrev after (conditions : Conditions) (bridge : Bridge parts)
    (request : Request) : Bridge parts :=
  (Bridge.exec conditions bridge request).2

/-- The manager of a process. -/
abbrev managerOf (bridge : Bridge parts) (process : ℕ) : Manager parts :=
  (bridge.process process).manager

/-- The managers are left to their own sections. -/
theorem manager_other (conditions : Conditions) (bridge : Bridge parts)
    (other : ∀ label section_, request ≠ .manager process label section_) :
    managerOf (after conditions bridge request) process =
      managerOf bridge process := by
  have tables : ∀ {α : Type} {performed : Except String (α × Bridge parts)},
      (∀ reply later, performed = .ok (reply, later) →
        later.process = bridge.process) →
      managerOf (statement conditions bridge performed).2 process =
        managerOf bridge process := by
    intro α performed same
    rcases statement_cases conditions bridge performed with
      ⟨panne, failed⟩ | ⟨reply, later, done, answered⟩
    · rw [failed]
    · rw [answered]
      exact congrArg (fun processes => (processes process).manager)
        (same reply later done)
  have memory : ∀ {α : Type} {changed : ℕ}
      {change : Process parts → α × Process parts},
      (∀ memory, (change memory).2.manager = memory.manager) →
      managerOf (bridge.remember changed change).2 process =
        managerOf bridge process := by
    intro α changed change same
    show ((Function.update bridge.process changed _ process)).manager = _
    by_cases here : process = changed
    · subst here
      rw [Function.update_self]
      exact same _
    · rw [Function.update_of_ne here]
  cases request with
  | manager process' label section_ =>
      have different : process ≠ process' :=
        fun same => other label section_ (same ▸ rfl)
      show ((Function.update bridge.process process' _ process)).manager = _
      rw [Function.update_of_ne different]
  | exchangePurge process' current new =>
      apply memory
      intro memory
      unfold Bridge.exchangePurge
      split <;> rfl
  | invite process' roomId nowMs =>
      apply memory
      intro memory
      unfold Bridge.invite
      split <;> rfl
  | warn process' roomId =>
      apply memory
      intro memory
      unfold Bridge.warn
      dsimp only
      split <;> split <;> rfl
  | markSeen eventId seenAt =>
      apply tables
      intro reply later done
      unfold Bridge.markSeen at done
      split at done <;> cases done <;> rfl
  | deleteSeen before =>
      apply tables
      intro reply later done
      cases done
      rfl
  | readRoom roomId =>
      apply tables
      intro reply later done
      cases done
      rfl
  | updateRoom roomId row =>
      apply tables
      intro reply later done
      unfold Bridge.updateRoom at done
      split at done <;> cases done <;> rfl
  | insertRoom roomId row =>
      apply tables
      intro reply later done
      unfold Bridge.insertRoom at done
      split at done
      · cases done
      · cases done
        rfl
  | _ => rfl

theorem manager_self (conditions : Conditions) (bridge : Bridge parts)
    (process : ℕ) (label : Option Manager.Turn) (section_ : Manager.Section) :
    managerOf (after conditions bridge (.manager process label section_))
        process =
      (Manager.exec conditions.manager (managerOf bridge process)
        section_).2 := by
  show ((Function.update bridge.process process _ process)).manager = _
  rw [Function.update_self]

theorem hub_exec {manager : Manager parts} {section_ : Manager.Section}
    {conditions : Manager.Conditions}
    (other : ∀ request, section_ ≠ .hub request) :
    (Manager.exec conditions manager section_).2.hub = manager.hub := by
  cases section_ with
  | hub request => exact (other request rfl).elim
  | assemble caller kind agentId session token =>
      simp only [Manager.exec]
      split <;> rfl
  | touch subject id now =>
      simp only [Manager.exec, Manager.sweepTouch, Manager.touchTable]
      split <;> rfl
  | tryBegin id =>
      simp only [Manager.exec, Manager.tryBegin]
      split <;> rfl
  | signal entry =>
      simp only [Manager.exec, Manager.signalEntry]
      split <;> rfl
  | _ => rfl

theorem hub_other
    (other : ∀ label section_, request ≠ .manager process label (.hub section_)) :
    hubOf (after conditions bridge request) process = hubOf bridge process := by
  by_cases managed : ∃ label section_, request = .manager process label section_
  · obtain ⟨label, section_, rfl⟩ := managed
    have same := manager_self conditions bridge process label section_
    exact (congrArg Manager.hub same).trans
      (hub_exec fun request here => other label request (here ▸ rfl))
  · have same := manager_other conditions bridge
      fun label section_ here => managed ⟨label, section_, here⟩
    exact congrArg Manager.hub same

theorem hub_self (label : Option Manager.Turn) (section_ : Hub.Section) :
    hubOf (after conditions bridge (.manager process label (.hub section_)))
        process =
      (Hub.exec conditions.manager.now (hubOf bridge process) section_).2 :=
  congrArg Manager.hub (manager_self conditions bridge process label _)

/-- The gate of a process, and the permits that it has given. -/
abbrev gateOf (bridge : Bridge parts) (process : ℕ) : parts.gate.State × ℕ :=
  ((managerOf bridge process).gate, (managerOf bridge process).permits)

theorem gate_exec (conditions : Manager.Conditions) (manager : Manager parts)
    {section_ : Manager.Section}
    (notBegin : ∀ id, section_ ≠ .tryBegin id)
    (notRelease : ∀ id permit, section_ ≠ .release id permit) :
    (Manager.exec conditions manager section_).2.gate = manager.gate ∧
      (Manager.exec conditions manager section_).2.permits =
        manager.permits := by
  cases section_ with
  | tryBegin id => exact (notBegin id rfl).elim
  | release id permit => exact (notRelease id permit rfl).elim
  | assemble caller kind agentId session token =>
      simp only [Manager.exec]
      split <;> exact ⟨rfl, rfl⟩
  | touch subject id now =>
      simp only [Manager.exec, Manager.sweepTouch, Manager.touchTable]
      split <;> exact ⟨rfl, rfl⟩
  | signal entry =>
      simp only [Manager.exec, Manager.signalEntry]
      split <;> exact ⟨rfl, rfl⟩
  | _ => exact ⟨rfl, rfl⟩

theorem gate_other (conditions : Conditions) (bridge : Bridge parts)
    (notBegin : ∀ label id, request ≠ .manager process label (.tryBegin id))
    (notRelease : ∀ label id permit,
      request ≠ .manager process label (.release id permit)) :
    gateOf (after conditions bridge request) process = gateOf bridge process := by
  by_cases managed : ∃ label section_, request = .manager process label section_
  · obtain ⟨label, section_, rfl⟩ := managed
    have same := manager_self conditions bridge process label section_
    obtain ⟨gate, permits⟩ := gate_exec conditions.manager
      (managerOf bridge process)
      (fun id here => notBegin label id (here ▸ rfl))
      fun id permit here => notRelease label id permit (here ▸ rfl)
    unfold gateOf
    rw [same, gate, permits]
  · have same := manager_other conditions bridge
      fun label section_ here => managed ⟨label, section_, here⟩
    unfold gateOf
    rw [same]

/-- The permit holds the gate of the session. -/
structure Held (bridge : Bridge parts) (trace : Trace parts) (process : ℕ)
    (id : SessionId) (permit : ℕ) : Prop where
  holder : holder process id trace = some permit
  active : parts.gate.isActive id (gateOf bridge process).1 = true
  given : permit < (gateOf bridge process).2

/-- What the gate replies to a task that asks for a permit: another turn keeps
its own, and a new permit holds the gate. -/
theorem tryBegin_cases (conditions : Conditions) (bridge : Bridge parts)
    (process : ℕ) (label : Option Manager.Turn) (id : SessionId) :
    (∃ error, (Bridge.exec conditions bridge
        (.manager process label (.tryBegin id))).1 = .error error ∧
      (∀ other, parts.gate.isActive other (gateOf (after conditions bridge
        (.manager process label (.tryBegin id))) process).1 =
          parts.gate.isActive other (gateOf bridge process).1) ∧
      (gateOf (after conditions bridge
        (.manager process label (.tryBegin id))) process).2 =
          (gateOf bridge process).2) ∨
    ((Bridge.exec conditions bridge
        (.manager process label (.tryBegin id))).1 =
          .ok (gateOf bridge process).2 ∧
      parts.gate.isActive id (gateOf bridge process).1 = false ∧
      (∀ other, parts.gate.isActive other (gateOf (after conditions bridge
        (.manager process label (.tryBegin id))) process).1 =
          (decide (other = id) ||
            parts.gate.isActive other (gateOf bridge process).1)) ∧
      (gateOf (after conditions bridge
        (.manager process label (.tryBegin id))) process).2 =
          (gateOf bridge process).2 + 1) := by
  have same := manager_self conditions bridge process label (.tryBegin id)
  have answered : (Bridge.exec conditions bridge
      (.manager process label (.tryBegin id))).1 =
        ((managerOf bridge process).tryBegin id).1 := rfl
  have begun : (Manager.exec conditions.manager (managerOf bridge process)
      (.tryBegin id)).2 = ((managerOf bridge process).tryBegin id).2 := rfl
  unfold gateOf
  rw [same, answered, begun]
  unfold Manager.tryBegin
  dsimp only
  cases given : (parts.gate.tryBegin id (managerOf bridge process).gate).1 with
  | error error =>
      left
      refine ⟨error, rfl, ?_, rfl⟩
      exact fun other => parts.gate.tryBegin_error id _ error given other
  | ok _ =>
      right
      obtain ⟨free, active⟩ := parts.gate.tryBegin_ok id _ given
      exact ⟨rfl, free, active, rfl⟩

theorem release_self (label : Option Manager.Turn) (id : SessionId)
    (permit : ℕ) :
    gateOf (after conditions bridge (.manager process label
      (.release id permit))) process =
      (parts.gate.release id (gateOf bridge process).1,
        (gateOf bridge process).2) := by
  have same := manager_self conditions bridge process label
    (.release id permit)
  unfold gateOf
  rw [same]
  rfl

/-- A permit that is not given back still holds the gate. -/
theorem Held.step {id : SessionId} {permit : ℕ}
    (held : Held bridge trace process id permit) (task : ℕ)
    (conditions : Conditions) {request : Request}
    (kept : ∀ label permit',
      request ≠ .manager process label (.release id permit')) :
    Held (after conditions bridge request)
      (passed task conditions bridge request :: trace) process id permit := by
  by_cases begins : ∃ label other,
      request = .manager process label (.tryBegin other)
  · obtain ⟨label, other, rfl⟩ := begins
    have asked : passed task conditions bridge
        (.manager process label (.tryBegin other)) =
          ⟨task, bridge, .manager process label (.tryBegin other),
            (Bridge.exec conditions bridge
              (.manager process label (.tryBegin other))).1⟩ := rfl
    rw [asked]
    rcases tryBegin_cases conditions bridge process label other with
      ⟨error, answered, active, permits⟩ | ⟨answered, free, active, permits⟩
    · rw [answered]
      exact ⟨held.holder, (active id).trans held.active,
        permits ▸ held.given⟩
    · have different : other ≠ id := by
        intro same
        subst same
        rw [held.active] at free
        cases free
      rw [answered]
      refine ⟨?_, ?_, ?_⟩
      · exact (if_neg fun same => different same.2).trans held.holder
      · rw [active id, held.active, Bool.or_true]
      · rw [permits]
        exact Nat.lt_succ_of_lt held.given
  by_cases releases : ∃ label other permit',
      request = .manager process label (.release other permit')
  · obtain ⟨label, other, permit', rfl⟩ := releases
    have different : other ≠ id := fun same =>
      kept label permit' (same ▸ rfl)
    refine ⟨?_, ?_, ?_⟩
    · exact (if_neg fun same => different same.2).trans held.holder
    · rw [release_self]
      dsimp only
      rw [parts.gate.isActive_release, held.active,
        decide_eq_false (Ne.symm different)]
      rfl
    · rw [release_self]
      exact held.given
  · have gate := gate_other conditions bridge
      (fun label other here => begins ⟨label, other, here⟩)
      fun label other permit' here => releases ⟨label, other, permit', here⟩
    refine ⟨?_, ?_, ?_⟩
    · rw [holder_cons]
      · exact held.holder
      · exact fun label here => begins ⟨label, id, here⟩
      · exact fun label permit' here => releases ⟨label, id, permit', here⟩
    · rw [gate]
      exact held.active
    · rw [gate]
      exact held.given

section Unread

variable {subscription : Subscription}

/-- The subscription belongs to the task that made it. -/
theorem owner_step (made : (hubOf bridge process).Made subscription)
    (task : ℕ) (conditions : Conditions) (request : Request) :
    owner process subscription (passed task conditions bridge request :: trace) =
      owner process subscription trace := by
  cases request with
  | manager process' label section_ =>
      cases section_ with
      | hub request =>
          cases request with
          | subscribe id slot =>
              apply if_neg
              intro same
              obtain ⟨rfl, rfl⟩ := same
              have new : (Bridge.exec conditions bridge (.manager process' label
                  (.hub (.subscribe id slot)))).1 =
                    ((hubOf bridge process').feed slot).made :=
                parts.channels.subscribe_fst _
              have old := made.2
              rw [new] at old
              exact Nat.lt_irrefl _ old
          | _ => rfl
      | _ => rfl
  | _ => rfl

theorem made_after (made : (hubOf bridge process).Made subscription)
    (conditions : Conditions) (ready : Bridge.ready bridge request = true) :
    (hubOf (after conditions bridge request) process).Made subscription := by
  by_cases asked : ∃ label section_,
      request = .manager process label (.hub section_)
  · obtain ⟨label, section_, rfl⟩ := asked
    rw [hub_self]
    exact made.exec ready _
  · rw [hub_other fun label section_ here => asked ⟨label, section_, here⟩]
    exact made

theorem heard_other (conditions : Conditions) (bridge : Bridge parts)
    (process : ℕ) (subscription : Subscription)
    (other : ∀ label section_, request ≠ .manager process label (.hub section_)) :
    heard (after conditions bridge request) process subscription =
      heard bridge process subscription := by
  unfold heard
  rw [hub_other other]

/-- What is left to read stays when nothing is sent, read or dropped. -/
theorem unread_step (made : (hubOf bridge process).Made subscription)
    (conditions : Conditions) (ready : Bridge.ready bridge request = true)
    (unused : Request.uses request ≠ some (process, subscription))
    (unsent : ∀ label session event,
      request = .manager process label (.hub (.diffuse session event)) →
      (hubOf bridge process).slots session ≠ some subscription.slot) :
    (hubOf (after conditions bridge request) process).unread subscription =
      (hubOf bridge process).unread subscription := by
  by_cases asked : ∃ label section_,
      request = .manager process label (.hub section_)
  · obtain ⟨label, section_, rfl⟩ := asked
    rw [hub_self]
    by_cases sends : ∃ session event, section_ = .diffuse session event
    · obtain ⟨session, event, rfl⟩ := sends
      have elsewhere := unsent label session event rfl
      exact (Hub.unread_diffuse _ _ _ _).trans (if_neg elsewhere)
    · apply Hub.unread_exec made ready
      · intro same
        subst same
        exact unused rfl
      · intro same
        subst same
        exact unused rfl
      · exact fun session event same => sends ⟨session, event, same⟩
  · rw [hub_other fun label section_ here => asked ⟨label, section_, here⟩]

theorem unread_sent {label : Option Manager.Turn} {session : SessionId}
    {event : SessionEvent}
    (reaches : (hubOf bridge process).slots session = some subscription.slot) :
    (hubOf (after conditions bridge
      (.manager process label (.hub (.diffuse session event)))) process).unread
        subscription =
      ((hubOf bridge process).unread subscription).map
        fun left => left ++ [event] := by
  rw [hub_self]
  exact (Hub.unread_diffuse _ _ _ _).trans (if_pos reaches)

/-- The first end that is left is the one that was, or the one that is sent. -/
theorem heard_sent {label : Option Manager.Turn} {session : SessionId}
    {event : SessionEvent}
    (reaches : (hubOf bridge process).slots session = some subscription.slot)
    {ended : End}
    (hears : heard (after conditions bridge
      (.manager process label (.hub (.diffuse session event)))) process
        subscription = some ended) :
    heard bridge process subscription = some ended ∨
      (heard bridge process subscription = none ∧ ending event = some ended ∧
        (hubOf bridge process).unread subscription ≠ none) := by
  unfold heard at hears ⊢
  rw [unread_sent reaches] at hears
  cases unread : (hubOf bridge process).unread subscription with
  | none =>
      rw [unread] at hears
      cases hears
  | some left =>
      rw [unread] at hears
      simp only [Option.map_some, Option.bind_some, List.findSome?_append]
        at hears ⊢
      cases first : left.findSome? ending with
      | some other =>
          rw [first] at hears
          exact Or.inl hears
      | none =>
          rw [first] at hears
          refine Or.inr ⟨rfl, ?_, nofun⟩
          simpa using hears

/-- What a subscription receives is the first end that it has left to read;
or what it has left then was left before, unless it missed an end. -/
theorem heard_received {feed later : Feed SessionEvent} {receiver : ℕ}
    {received : Except RecvError SessionEvent}
    (receives : feed.Receives receiver (some received) later)
    (attends : ∀ missed left, received = .error (.lagged missed) →
      feed.unread receiver = some left →
      (left.take missed).findSome? ending = none ∨
        (left.drop missed).findSome? ending = none) :
    (∀ event ended, received = .ok event → ending event = some ended →
      (feed.unread receiver).bind (·.findSome? ending) = some ended) ∧
    ((∀ event, received = .ok event → ending event = none) →
      ∀ ended, (later.unread receiver).bind (·.findSome? ending) = some ended →
        (feed.unread receiver).bind (·.findSome? ending) = some ended) := by
  cases receives with
  | event found =>
      rename_i first rest
      constructor
      · intro event ended same tells
        cases same
        rw [found, Option.bind_some, List.findSome?_cons, tells]
      · intro silent ended hears
        have none := silent first rfl
        rw [found, Option.bind_some, List.findSome?_cons, none]
        simpa [Feed.leave] using hears
  | lagged found some =>
      rename_i missed rest
      constructor
      · intro event ended same
        cases same
      intro _ ended hears
      have left : rest.findSome? ending = Option.some ended := by
        simpa [Feed.leave] using hears
      have lost := attends missed.length _ rfl found
      rw [List.take_left, List.drop_left, left] at lost
      rcases lost with none | none
      · rw [found, Option.bind_some, List.findSome?_append, none, left]
        rfl
      · cases none
  | closed found _ =>
      constructor
      · intro event ended same
        cases same
      · intro _ ended hears
        exact hears

end Unread

/-- What a task that watches a session for a message knows. -/
structure Watches (trace : Trace parts) (task : ℕ) (message : MatrixMessage)
    (process : ℕ) (id : SessionId) (subscription : Subscription) : Prop where
  handles : Handles trace task message
  slotted : SlotOf trace process id subscription.slot
  owned : owner process subscription trace = some task

/-- The end that is heard first, if any, is that of the turn. -/
def HearsOwn (bridge : Bridge parts) (trace : Trace parts) (process : ℕ)
    (turn : Manager.Turn) (subscription : Subscription) : Prop :=
  ∀ ended, heard bridge process subscription = some ended →
    Ended trace process turn ended

/-- What holds of a task in each phase. -/
def Phase.Holds (bridge : Bridge parts) (trace : Trace parts) (task : ℕ) :
    Phase → Prop
  | .arrived => courier task trace = none
  | .calm => True
  | .handling message => Handles trace task message ∧ courier task trace = none
  | .slotted message process id slot =>
      SlotOf trace process id slot ∧ ∀ given ∈ message,
        Handles trace task given ∧ courier task trace = none
  | .listening message process id subscription =>
      Watches trace task message process id subscription ∧
        courier task trace = none
  | .permitted watch process id permit =>
      Held bridge trace process id permit ∧
        Unspawned trace process permit ∧ ∀ given ∈ watch,
          Watches trace task given.1 process id given.2 ∧
            (Throughout Timely trace → heard bridge process given.2 = none)
  | .waiting message process turn subscription =>
      Watches trace task message process turn.session subscription ∧
        courier task trace = some { process, turn, sent := [] } ∧
        (Released trace process turn.permit ∨
          Held bridge trace process turn.session turn.permit) ∧
        (Throughout Timely trace →
          HearsOwn bridge trace process turn subscription)
  | .answering left => ∃ message process turn ended sent,
      Handles trace task message ∧
        courier task trace = some { process, turn, sent } ∧
        sent ++ left = answer message ended ∧
        (Throughout Timely trace → Ended trace process turn ended)
  | .turning process turn =>
      Held bridge trace process turn.session turn.permit ∧
        Spawned trace process turn

/-- Where a task that handles no message is seen to stand. -/
def Phase.seen : Phase → Phase
  | .calm => .arrived
  | .slotted none _ _ _ => .arrived
  | .permitted none _ _ _ => .arrived
  | .turning _ _ => .arrived
  | phase => phase

structure Own (bridge : Bridge parts) (trace : Trace parts) (task : ℕ)
    (stage : Stage) : Prop where
  standing : standing task trace = stage.phase.seen
  owned : ∀ used ∈ stage.owned, owner used.1 used.2 trace = some task
  phase : stage.phase.Holds bridge trace task

structure Sound (bridge : Bridge parts) (trace : Trace parts) : Prop where
  slots : ∀ {process id slot}, (hubOf bridge process).slots id = some slot →
    SlotOf trace process id slot
  made : ∀ {process id slot}, SlotOf trace process id slot →
    slot < (hubOf bridge process).made
  unique : ∀ {process id other slot}, SlotOf trace process id slot →
    SlotOf trace process other slot → id = other
  receivers : ∀ {process subscription task},
    owner process subscription trace = some task →
    (hubOf bridge process).Made subscription
  given : ∀ {process turn}, Spawned trace process turn →
    turn.permit < (gateOf bridge process).2
  same : ∀ {process turn other}, Spawned trace process turn →
    Spawned trace process other → turn.permit = other.permit → turn = other
  once : ∀ {one other first second}, courier one trace = some first →
    courier other trace = some second → first.process = second.process →
    first.turn.permit = second.turn.permit → one = other
  own : Throughout Timely trace → AnswersOwn trace

/-- The turn of a task. -/
abbrev Asks (config : ChatConfig) (task : ℕ) (stage : Stage)
    (bridge : Bridge parts) (trace : Trace parts) (request : Request) : Prop :=
  Turn (system parts config) exchanges Sound
    (fun task stage bridge trace => Own bridge trace task stage) task stage
    bridge trace request

theorem Watches.step {message : MatrixMessage} {id : SessionId}
    {subscription : Subscription} {watcher : ℕ} (sound : Sound bridge trace)
    (watches : Watches trace watcher message process id subscription)
    (task : ℕ) (conditions : Conditions) (request : Request) :
    Watches (passed task conditions bridge request :: trace) watcher message
      process id subscription where
  handles := watches.handles.cons
  slotted := watches.slotted.cons
  owned := (owner_step (sound.receivers watches.owned) task conditions
    request).trans watches.owned

theorem owner_of_uses {stage : Stage} {used : ℕ × Subscription}
    (own : Own bridge trace task stage) (allowed : stage.Allows request)
    (uses : Request.uses request = some used) :
    owner used.1 used.2 trace = some task :=
  own.owned used (allowed.2 used uses)

theorem phase_of_release {phase : Phase} {label : Option Manager.Turn}
    {id : SessionId} {permit : ℕ}
    (allowed : phase.Allows (.manager process label (.release id permit))) :
    ∃ turn, phase = .turning process turn ∧ id = turn.session ∧
      permit = turn.permit := by
  cases phase with
  | turning process' turn =>
      obtain ⟨rfl, rfl, rfl⟩ := allowed
      exact ⟨turn, rfl, rfl, rfl⟩
  | _ => exact allowed.elim

theorem phase_of_diffuse {phase : Phase} {label : Option Manager.Turn}
    {session : SessionId} {event : SessionEvent}
    (allowed : phase.Allows
      (.manager process label (.hub (.diffuse session event)))) :
    ∃ turn, phase = .turning process turn ∧ label = some turn ∧
      session = turn.session := by
  cases phase with
  | turning process' turn =>
      obtain ⟨rfl, rfl, rfl⟩ := allowed
      exact ⟨turn, rfl, rfl, rfl⟩
  | _ => exact allowed.elim

theorem phase_of_spawn {phase : Phase} {label : Option Manager.Turn}
    {turn : Manager.Turn}
    (allowed : phase.Allows (.manager process label (.spawn turn))) :
    ∃ watch, phase = .permitted watch process turn.session turn.permit := by
  cases phase with
  | permitted watch process' id permit =>
      obtain ⟨rfl, rfl, rfl⟩ := allowed
      exact ⟨watch, rfl⟩
  | _ => exact allowed.elim

theorem held_frame {stage : Stage} {id : SessionId} {permit : ℕ}
    (own : Own bridge trace task stage) (allowed : stage.Allows request)
    (held : Held bridge trace process id permit)
    (apart : stage.phase.token ≠ some (process, permit))
    (conditions : Conditions) :
    Held (after conditions bridge request)
      (passed task conditions bridge request :: trace) process id permit := by
  apply held.step
  intro label permit' same
  subst same
  obtain ⟨turn, phase, rfl, rfl⟩ := phase_of_release allowed.1
  obtain ⟨holds, _⟩ := phase ▸ own.phase
  have taken := held.holder.symm.trans holds.holder
  rw [phase] at apart
  apply apart
  show some (process, turn.permit) = _
  rw [Option.some.inj taken]

theorem unspawned_frame {stage : Stage} {permit : ℕ}
    (allowed : stage.Allows request) (unspawned : Unspawned trace process permit)
    (apart : stage.phase.token ≠ some (process, permit))
    (conditions : Conditions) :
    Unspawned (passed task conditions bridge request :: trace) process
      permit := by
  apply unspawned.cons
  intro label turn here same
  obtain rfl : request = .manager process label (.spawn turn) := here
  obtain ⟨watch, phase⟩ := phase_of_spawn allowed.1
  rw [phase] at apart
  apply apart
  show some (process, turn.permit) = _
  rw [same]

/-- A turn that is over is told so, or keeps its permit. -/
theorem held_or_released {stage : Stage} {turn : Manager.Turn}
    (own : Own bridge trace task stage) (allowed : stage.Allows request)
    (known : Released trace process turn.permit ∨
      Held bridge trace process turn.session turn.permit)
    (conditions : Conditions) :
    Released (passed task conditions bridge request :: trace) process
        turn.permit ∨
      Held (after conditions bridge request)
        (passed task conditions bridge request :: trace) process turn.session
        turn.permit := by
  rcases known with released | held
  · exact Or.inl released.cons
  by_cases releases : ∃ label permit',
      request = .manager process label (.release turn.session permit')
  · obtain ⟨label, permit', rfl⟩ := releases
    obtain ⟨other, phase, sameSession, rfl⟩ := phase_of_release allowed.1
    obtain ⟨holds, _⟩ := phase ▸ own.phase
    rw [← sameSession] at holds
    have taken := Option.some.inj (held.holder.symm.trans holds.holder)
    left
    refine ⟨_, List.mem_cons_self, ?_⟩
    show some (process, other.permit) = _
    rw [taken]
  · right
    exact held.step task conditions fun label permit' here =>
      releases ⟨label, permit', here⟩

section Heard

variable {stage : Stage} {message : MatrixMessage} {id : SessionId}
  {subscription : Subscription} {watcher : ℕ}

/-- While a message has the permit, nothing is sent to its subscription. -/
theorem heard_permitted {permit : ℕ}
    (asks : Asks config task stage bridge trace request)
    (watches : Watches trace watcher message process id subscription)
    (held : Held bridge trace process id permit)
    (apart : stage.phase.token ≠ some (process, permit))
    (unused : Request.uses request ≠ some (process, subscription))
    (conditions : Conditions) :
    heard (after conditions bridge request) process subscription =
      heard bridge process subscription := by
  have made := asks.inv.receivers watches.owned
  have same := unread_step made conditions asks.ready unused (by
    intro label session event here reaches
    subst here
    obtain ⟨turn, phase, _, rfl⟩ := phase_of_diffuse asks.allowed.1
    obtain ⟨holds, _⟩ := phase ▸ asks.own.phase
    have sameSession :=
      asks.inv.unique (asks.inv.slots reaches) watches.slotted
    rw [sameSession] at holds
    have taken := Option.some.inj (held.holder.symm.trans holds.holder)
    rw [phase] at apart
    apply apart
    show some (process, turn.permit) = _
    rw [taken])
  unfold heard
  rw [same]

/-- The first end that a message hears stays that of its own turn: while this
turn has its permit the gate holds off the others, and later they are
undisturbed. -/
theorem hears_step {turn : Manager.Turn}
    (asks : Asks config task stage bridge trace request)
    (watches : Watches trace watcher message process turn.session subscription)
    (stands : standing watcher trace =
      .waiting message process turn subscription)
    (started : courier watcher trace = some { process, turn, sent := [] })
    (known : Released trace process turn.permit ∨
      Held bridge trace process turn.session turn.permit)
    (unused : Request.uses request ≠ some (process, subscription))
    (hears : HearsOwn bridge trace process turn subscription)
    (undisturbed : Undisturbed trace (passed task conditions bridge request)) :
    HearsOwn (after conditions bridge request)
      (passed task conditions bridge request :: trace) process turn
      subscription := by
  intro ended after
  by_cases reached : ∃ label session event,
      request = .manager process label (.hub (.diffuse session event)) ∧
      (hubOf bridge process).slots session = some subscription.slot
  · obtain ⟨label, session, event, rfl, reaches⟩ := reached
    rcases heard_sent reaches after with before | ⟨none, tells, alive⟩
    · exact (hears ended before).cons
    obtain ⟨other, phase, rfl, sameSession⟩ :=
      phase_of_diffuse asks.allowed.1
    by_cases mine : other = turn
    · subst mine
      exact ⟨task, bridge, session, event, tells, List.mem_cons_self⟩
    obtain ⟨spawned, past, member, same⟩ := spawned_of_courier started
    rcases known with released | held
    · have ends_ : (process, session, some other) ∈
          ends (passed task conditions bridge (.manager process (some other)
            (.hub (.diffuse session event)))) := by
        show Option.map _ (ending event) = _
        rw [tells]
        rfl
      have waits : (process, turn, subscription) ∈
          (standing past.task trace).waits := by
        rw [same, stands]
        rfl
      have heard := undisturbed _ ends_ past member _ waits rfl
        (fun here => mine (Option.some.inj here)) released reaches alive
      exact (heard none).elim
    · obtain ⟨holds, spawnedOther⟩ := phase ▸ asks.own.phase
      rw [← sameSession, asks.inv.unique (asks.inv.slots reaches)
        watches.slotted] at holds
      have taken := Option.some.inj (holds.holder.symm.trans held.holder)
      exact (mine (asks.inv.same spawnedOther spawned taken)).elim
  · have made := asks.inv.receivers watches.owned
    have same := unread_step made conditions asks.ready unused (by
      intro label session event here reaches
      exact reached ⟨label, session, event, here, reaches⟩)
    have before : heard bridge process subscription = some ended := by
      unfold heard at after ⊢
      rw [← same]
      exact after
    exact (hears ended before).cons

theorem unused_of_other (own : Own bridge trace task stage)
    (allowed : stage.Allows request)
    (owned : owner process subscription trace = some watcher)
    (different : watcher ≠ task) :
    Request.uses request ≠ some (process, subscription) := by
  intro uses
  have mine := owner_of_uses own allowed uses
  rw [owned] at mine
  exact different (Option.some.inj mine)

end Heard

/-- What a task does leaves what holds of the others. -/
theorem Own.frame {stage otherStage : Stage} {other : ℕ}
    (asks : Asks config task stage bridge trace request)
    (conditions : Conditions) (different : other ≠ task)
    (own : Own bridge trace other otherStage)
    (apart : ∀ held, stage.phase.token = some held →
      otherStage.phase.token ≠ some held) :
    Own (after conditions bridge request)
      (passed task conditions bridge request :: trace) other otherStage := by
  obtain ⟨stands, owned, holds⟩ := own
  have notMine : (passed task conditions bridge request).task ≠ other :=
    different.symm
  have sameCourier :
      courier other (passed task conditions bridge request :: trace) =
        courier other trace := courier_other notMine
  refine ⟨(standing_other notMine).trans stands, ?_, ?_⟩
  · intro used member
    have mine := owned used member
    exact (owner_step (asks.inv.receivers mine) task conditions request).trans
      mine
  obtain ⟨subscriptions, phase⟩ := otherStage
  cases phase with
  | arrived => exact sameCourier.trans holds
  | calm => trivial
  | handling message => exact ⟨holds.1.cons, sameCourier.trans holds.2⟩
  | slotted message process id slot =>
      refine ⟨holds.1.cons, ?_⟩
      intro given present
      obtain ⟨handles, unsent⟩ := holds.2 given present
      exact ⟨handles.cons, sameCourier.trans unsent⟩
  | listening message process id subscription =>
      exact ⟨holds.1.step asks.inv task conditions request,
        sameCourier.trans holds.2⟩
  | permitted watch process id permit =>
      obtain ⟨held, unspawned, watched⟩ := holds
      have free : stage.phase.token ≠ some (process, permit) :=
        fun same => apart _ same rfl
      refine ⟨held_frame asks.own asks.allowed held free conditions,
        unspawned_frame asks.allowed unspawned free conditions, ?_⟩
      intro given present
      obtain ⟨watches, fresh⟩ := watched given present
      refine ⟨watches.step asks.inv task conditions request, ?_⟩
      intro timely
      have unused := unused_of_other asks.own asks.allowed watches.owned
        different
      rw [heard_permitted asks watches held free unused conditions]
      exact fresh timely.2
  | waiting message process turn subscription =>
      obtain ⟨watches, started, known, hears⟩ := holds
      refine ⟨watches.step asks.inv task conditions request,
        sameCourier.trans started,
        held_or_released asks.own asks.allowed known conditions, ?_⟩
      intro timely
      have unused := unused_of_other asks.own asks.allowed watches.owned
        different
      exact hears_step asks watches stands started known unused
        (hears timely.2) timely.1.undisturbed
  | answering left =>
      obtain ⟨message, process, turn, ended, sent, handles, started, answers,
        own⟩ := holds
      exact ⟨message, process, turn, ended, sent, handles.cons,
        sameCourier.trans started, answers, fun timely =>
          (own timely.2).cons⟩
  | turning process turn =>
      have free : stage.phase.token ≠ some (process, turn.permit) :=
        fun same => apart _ same rfl
      exact ⟨held_frame asks.own asks.allowed holds.1 free conditions,
        holds.2.cons⟩

/-- Where a task is seen to stand follows its phase. -/
theorem seen_next {phase : Phase} (allowed : phase.Allows request)
    (answer : request.Reply) :
    (phase.next request answer).seen = phase.seen.next request answer := by
  by_cases plain : Request.Plain request
  · rw [plain_next phase plain, plain_next phase.seen plain]
  cases request with
  | handle message =>
      cases phase with
      | arrived => rfl
      | _ => exact allowed.elim
  | send roomId text txnId =>
      cases phase with
      | handling message => rfl
      | listening message process id subscription => rfl
      | answering left => rfl
      | _ => exact allowed.elim
  | manager process label section_ =>
      cases section_ with
      | tryBegin id =>
          cases phase with
          | calm => cases answer <;> rfl
          | listening message process id subscription => cases answer <;> rfl
          | _ => exact allowed.elim
      | spawn turn =>
          cases phase with
          | permitted watch process id permit => cases watch <;> rfl
          | _ => exact allowed.elim
      | release id permit =>
          cases phase with
          | turning process turn => rfl
          | _ => exact allowed.elim
      | hub request =>
          cases request with
          | slot id =>
              cases phase with
              | calm => rfl
              | handling message => rfl
              | listening message process id subscription => rfl
              | _ => exact allowed.elim
          | subscribe id slot =>
              cases phase with
              | slotted message process id slot => cases message <;> rfl
              | _ => exact allowed.elim
          | diffuse id event =>
              cases phase with
              | turning process turn => rfl
              | _ => exact allowed.elim
          | recv subscription =>
              cases phase with
              | calm => rfl
              | waiting message process turn subscription =>
                  cases answer with
                  | error error => rfl
                  | ok event =>
                      show ((ending event).elim _ _ : Phase).seen =
                        ((ending event).elim _ _ : Phase)
                      cases ending event <;> rfl
              | _ => exact allowed.elim
          | unsubscribe subscription =>
              cases phase with
              | slotted message process id slot => cases message <;> rfl
              | permitted watch process id permit => cases watch <;> rfl
              | _ => rfl
          | _ => exact (plain trivial).elim
      | _ => exact (plain trivial).elim
  | _ => exact (plain trivial).elim

/-- A request that leaves its task where it was. -/
def Quiet (request : Request) : Prop :=
  Request.Plain request ∨ ∃ process label subscription,
    request = .manager process label (.hub (.unsubscribe subscription))

theorem carry_of_quiet (quiet : Quiet request) (courier : Option Courier) :
    carry request courier = courier := by
  rcases quiet with plain | ⟨_, _, _, rfl⟩
  · exact carry_of_plain plain courier
  · rfl

theorem next_of_quiet (quiet : Quiet request) (phase : Phase)
    (answer : request.Reply) : phase.next request answer = phase := by
  rcases quiet with plain | ⟨_, _, _, rfl⟩
  · exact plain_next phase plain answer
  · cases phase <;> rfl

/-- No end is heard that was not. -/
theorem heard_quiet {subscription : Subscription} (quiet : Quiet request)
    (made : (hubOf bridge process).Made subscription)
    (ready : Bridge.ready bridge request = true) (conditions : Conditions) :
    heard (after conditions bridge request) process subscription =
        heard bridge process subscription ∨
      heard (after conditions bridge request) process subscription = none := by
  by_cases uses : Request.uses request = some (process, subscription)
  · right
    rcases quiet with plain | ⟨other, label, dropped, rfl⟩
    · rw [plain_uses plain] at uses
      cases uses
    · cases uses
      have gone : (hubOf (after conditions bridge (.manager process label
          (.hub (.unsubscribe subscription)))) process).unread subscription =
            none := by
        rw [hub_self]
        unfold Hub.unread
        simp only [Hub.exec, Hub.feed_setSender, if_true,
          parts.channels.feed_dropReceiver]
        exact Function.update_self _ _ _
      unfold heard
      rw [gone]
      rfl
  · left
    have same := unread_step made conditions ready uses (by
      intro label session event here
      subst here
      rcases quiet with plain | ⟨_, _, _, other⟩
      · exact plain.elim
      · cases other)
    unfold heard
    rw [same]

theorem Phase.Holds.quiet {phase : Phase} (sound : Sound bridge trace)
    (holds : phase.Holds bridge trace task) (quiet : Quiet request)
    (ready : Bridge.ready bridge request = true) (conditions : Conditions) :
    phase.Holds (after conditions bridge request)
      (passed task conditions bridge request :: trace) task := by
  have sameCourier : courier task
      (passed task conditions bridge request :: trace) = courier task trace :=
    (courier_self task bridge request _).trans (carry_of_quiet quiet _)
  have kept : ∀ {process id permit}, Held bridge trace process id permit →
      Held (after conditions bridge request)
        (passed task conditions bridge request :: trace) process id permit := by
    intro process id permit held
    apply held.step
    intro label permit' here
    subst here
    rcases quiet with plain | ⟨_, _, _, other⟩
    · exact plain.elim
    · cases other
  cases phase with
  | arrived => exact sameCourier.trans holds
  | calm => trivial
  | handling message => exact ⟨holds.1.cons, sameCourier.trans holds.2⟩
  | slotted message process id slot =>
      refine ⟨holds.1.cons, ?_⟩
      intro given present
      obtain ⟨handles, unsent⟩ := holds.2 given present
      exact ⟨handles.cons, sameCourier.trans unsent⟩
  | listening message process id subscription =>
      exact ⟨holds.1.step sound task conditions request,
        sameCourier.trans holds.2⟩
  | permitted watch process id permit =>
      obtain ⟨held, unspawned, watched⟩ := holds
      refine ⟨kept held, ?_, ?_⟩
      · apply unspawned.cons
        intro label turn here
        obtain rfl : request = .manager process label (.spawn turn) := here
        rcases quiet with plain | ⟨_, _, _, other⟩
        · exact plain.elim
        · cases other
      · intro given present
        obtain ⟨watches, fresh⟩ := watched given present
        refine ⟨watches.step sound task conditions request, ?_⟩
        intro timely
        rcases heard_quiet quiet (sound.receivers watches.owned) ready
          conditions with same | none
        · exact same.trans (fresh timely.2)
        · exact none
  | waiting message process turn subscription =>
      obtain ⟨watches, started, known, hears⟩ := holds
      refine ⟨watches.step sound task conditions request,
        sameCourier.trans started, known.imp Released.cons kept, ?_⟩
      intro timely ended after
      rcases heard_quiet quiet (sound.receivers watches.owned) ready conditions
        with same | none
      · rw [same] at after
        exact (hears timely.2 ended after).cons
      · rw [none] at after
        cases after
  | answering left =>
      obtain ⟨message, process, turn, ended, sent, handles, started, answers,
        own⟩ := holds
      exact ⟨message, process, turn, ended, sent, handles.cons,
        sameCourier.trans started, answers, fun timely =>
          (own timely.2).cons⟩
  | turning process turn => exact ⟨kept holds.1, holds.2.cons⟩

/-- A new permit holds the gate of the session, and no turn has it yet. -/
theorem begun {label : Option Manager.Turn} {id : SessionId} {permit : ℕ}
    (sound : Sound bridge trace)
    (answered : (Bridge.exec conditions bridge
      (.manager process label (.tryBegin id))).1 = .ok permit) :
    Held (after conditions bridge (.manager process label (.tryBegin id)))
        (passed task conditions bridge
          (.manager process label (.tryBegin id)) :: trace) process id permit ∧
      Unspawned (passed task conditions bridge
        (.manager process label (.tryBegin id)) :: trace) process permit := by
  have asked : passed task conditions bridge
      (.manager process label (.tryBegin id)) =
        ⟨task, bridge, .manager process label (.tryBegin id),
          (Bridge.exec conditions bridge
            (.manager process label (.tryBegin id))).1⟩ := rfl
  rw [asked, answered]
  rcases tryBegin_cases conditions bridge process label id with
    ⟨error, refused, _⟩ | ⟨given, _, active, permits⟩
  · rw [answered] at refused
    cases refused
  rw [answered] at given
  obtain rfl : permit = (gateOf bridge process).2 := Except.ok.inj given
  refine ⟨⟨if_pos ⟨rfl, rfl⟩, ?_, ?_⟩, ?_⟩
  · rw [active id, decide_eq_true rfl]
    rfl
  · rw [permits]
    exact Nat.lt_succ_self _
  · intro turn spawned
    rcases spawned_cases spawned with ⟨_, here⟩ | earlier
    · cases here
    · exact Nat.ne_of_lt (sound.given earlier)

section Next

variable {owned : List (ℕ × Subscription)} {label : Option Manager.Turn}
  {id : SessionId} {phase : Phase}

theorem holds_tryBegin
    (asks : Asks config task ⟨owned, phase⟩ bridge trace
      (.manager process label (.tryBegin id))) (conditions : Conditions) :
    (phase.next (.manager process label (.tryBegin id))
      (Bridge.exec conditions bridge
        (.manager process label (.tryBegin id))).1).Holds
      (after conditions bridge (.manager process label (.tryBegin id)))
      (passed task conditions bridge
        (.manager process label (.tryBegin id)) :: trace) task := by
  have allowed : phase.Allows _ := asks.allowed.1
  have holds : phase.Holds bridge trace task := asks.own.phase
  have stands : standing task trace = phase.seen := asks.own.standing
  cases answered : (Bridge.exec conditions bridge
      (.manager process label (.tryBegin id))).1 with
  | error error =>
      cases phase with
      | calm => trivial
      | listening message process' id' subscription =>
          refine ⟨holds.1.step asks.inv task conditions _, ?_⟩
          exact (courier_self task bridge _ _).trans holds.2
      | _ => exact allowed.elim
  | ok permit =>
      obtain ⟨held, unspawned⟩ :=
        @begun _ _ _ task _ _ _ _ _ asks.inv answered
      cases phase with
      | calm => exact ⟨held, unspawned, nofun⟩
      | listening message process' id' subscription =>
          obtain ⟨rfl, rfl⟩ := allowed
          refine ⟨held, unspawned, ?_⟩
          intro given present
          cases present
          refine ⟨holds.1.step asks.inv task conditions _, ?_⟩
          intro timely
          have free : heard bridge process subscription = none := by
            have begins_ : process ∈ begins (passed task conditions bridge
                (.manager process label (.tryBegin id))) := by
              show begins ⟨task, bridge, .manager process label (.tryBegin id),
                (Bridge.exec conditions bridge
                  (.manager process label (.tryBegin id))).1⟩ = some process
              rw [answered]
              rfl
            have listens : (process, subscription) ∈
                (standing task trace).listens := by
              rw [stands]
              rfl
            exact timely.1.fresh process begins_ _ listens rfl
          have notHub : ∀ label' section_, Request.manager process label
              (.tryBegin id) ≠ .manager process label' (.hub section_) :=
            fun _ _ same => by cases same
          exact (heard_other conditions bridge process subscription
            notHub).trans free
      | _ => exact allowed.elim

/-- A slot is one of the session for which it is given. -/
theorem holds_slot
    (asks : Asks config task ⟨owned, phase⟩ bridge trace
      (.manager process label (.hub (.slot id)))) (conditions : Conditions) :
    (phase.next (.manager process label (.hub (.slot id)))
      (Bridge.exec conditions bridge
        (.manager process label (.hub (.slot id)))).1).Holds
      (after conditions bridge (.manager process label (.hub (.slot id))))
      (passed task conditions bridge
        (.manager process label (.hub (.slot id))) :: trace) task := by
  have allowed : phase.Allows _ := asks.allowed.1
  have holds : phase.Holds bridge trace task := asks.own.phase
  have known : SlotOf (passed task conditions bridge
      (.manager process label (.hub (.slot id))) :: trace) process id
        (Bridge.exec conditions bridge
          (.manager process label (.hub (.slot id)))).1 :=
    ⟨task, bridge, label, List.mem_cons_self⟩
  have sameCourier : ∀ slot : ℕ, courier task
      (⟨task, bridge, .manager process label (.hub (.slot id)), slot⟩ :: trace) =
        courier task trace := fun _ => courier_self task bridge _ _
  cases phase with
  | calm => exact ⟨known, nofun⟩
  | handling message =>
      refine ⟨known, ?_⟩
      intro given present
      cases present
      exact ⟨holds.1.cons, (sameCourier _).trans holds.2⟩
  | listening message process' id' subscription =>
      refine ⟨known, ?_⟩
      intro given present
      cases present
      exact ⟨holds.1.handles.cons, (sameCourier _).trans holds.2⟩
  | _ => exact allowed.elim

theorem holds_subscribe {slot : ℕ}
    (asks : Asks config task ⟨owned, phase⟩ bridge trace
      (.manager process label (.hub (.subscribe id slot))))
    (conditions : Conditions) :
    (phase.next (.manager process label (.hub (.subscribe id slot)))
      (Bridge.exec conditions bridge
        (.manager process label (.hub (.subscribe id slot)))).1).Holds
      (after conditions bridge
        (.manager process label (.hub (.subscribe id slot))))
      (passed task conditions bridge
        (.manager process label (.hub (.subscribe id slot))) :: trace) task := by
  have allowed : phase.Allows _ := asks.allowed.1
  have holds : phase.Holds bridge trace task := asks.own.phase
  cases phase with
  | slotted message process' id' slot' =>
      obtain ⟨rfl, rfl, rfl⟩ := allowed
      cases message with
      | none => trivial
      | some message =>
          obtain ⟨known, given⟩ := holds
          obtain ⟨handles, unsent⟩ := given message rfl
          refine ⟨⟨handles.cons, known.cons, if_pos ⟨rfl, rfl⟩⟩, ?_⟩
          exact (courier_self task bridge _ _).trans unsent
  | _ => exact allowed.elim

theorem holds_spawn {turn : Manager.Turn}
    (asks : Asks config task ⟨owned, phase⟩ bridge trace
      (.manager process label (.spawn turn))) (conditions : Conditions) :
    (phase.next (.manager process label (.spawn turn))
      (Bridge.exec conditions bridge
        (.manager process label (.spawn turn))).1).Holds
      (after conditions bridge (.manager process label (.spawn turn)))
      (passed task conditions bridge
        (.manager process label (.spawn turn)) :: trace) task := by
  have allowed : phase.Allows _ := asks.allowed.1
  have holds : phase.Holds bridge trace task := asks.own.phase
  obtain ⟨watch, rfl⟩ := phase_of_spawn allowed
  cases watch with
  | none => trivial
  | some watch =>
      obtain ⟨held, _, watched⟩ := holds
      obtain ⟨watches, fresh⟩ := watched watch rfl
      refine ⟨watches.step asks.inv task conditions _,
        courier_self task bridge _ _, Or.inr (held.step task conditions nofun),
        ?_⟩
      intro timely ended after
      have notHub : ∀ label' section_, Request.manager process label
          (.spawn turn) ≠ .manager process label' (.hub section_) :=
        fun _ _ same => by cases same
      rw [heard_other conditions bridge process watch.2 notHub,
        fresh timely.2] at after
      cases after

/-- What a message that waits receives: its end, or what leaves it waiting. -/
theorem holds_recv {subscription : Subscription}
    (asks : Asks config task ⟨owned, phase⟩ bridge trace
      (.manager process label (.hub (.recv subscription))))
    (conditions : Conditions) :
    (phase.next (.manager process label (.hub (.recv subscription)))
      (Bridge.exec conditions bridge
        (.manager process label (.hub (.recv subscription)))).1).Holds
      (after conditions bridge
        (.manager process label (.hub (.recv subscription))))
      (passed task conditions bridge
        (.manager process label (.hub (.recv subscription))) :: trace) task := by
  have allowed : phase.Allows _ := asks.allowed.1
  have holds : phase.Holds bridge trace task := asks.own.phase
  have stands : standing task trace = phase.seen := asks.own.standing
  cases phase with
  | calm => trivial
  | waiting message process' turn subscription' =>
      obtain ⟨rfl, rfl⟩ := allowed
      obtain ⟨watches, started, known, hears⟩ := holds
      have ready : (hubOf bridge process).ready (.recv subscription) = true :=
        asks.ready
      obtain ⟨sender, received, receives⟩ :=
        Hub.exec_recv ready conditions.manager.now
      have answered : (Bridge.exec conditions bridge
          (.manager process label (.hub (.recv subscription)))).1 =
            (Hub.exec conditions.manager.now (hubOf bridge process)
              (.recv subscription)).1 := rfl
      have unread : (hubOf (after conditions bridge (.manager process label
          (.hub (.recv subscription)))) process).unread subscription =
            (parts.channels.feed sender).unread subscription.receiver := by
        rw [hub_self, received]
        unfold Hub.unread
        rw [Hub.feed_setSender, if_pos rfl]
      have sameCourier : courier task (passed task conditions bridge
          (.manager process label (.hub (.recv subscription))) :: trace) =
            some { process, turn, sent := [] } :=
        (courier_self task bridge _ _).trans started
      have waits : (process, turn, subscription) ∈
          (standing task trace).waits := by
        rw [stands]
        rfl
      have attends : Attentive trace (passed task conditions bridge
          (.manager process label (.hub (.recv subscription)))) →
          ∀ missed left, (Hub.exec conditions.manager.now (hubOf bridge process)
            (.recv subscription)).1 = .error (.lagged missed) →
          ((hubOf bridge process).feed subscription.slot).unread
            subscription.receiver = some left →
          (left.take missed).findSome? ending = none ∨
            (left.drop missed).findSome? ending = none := by
        intro attentive missed left lagged found
        apply attentive (process, subscription, missed) _ _ waits rfl rfl left
          found
        show lags ⟨task, bridge, .manager process label
          (.hub (.recv subscription)), (Hub.exec conditions.manager.now
            (hubOf bridge process) (.recv subscription)).1⟩ = some _
        rw [lagged]
        rfl
      have stays : (∀ event, (Hub.exec conditions.manager.now
            (hubOf bridge process) (.recv subscription)).1 = .ok event →
            ending event = none) →
          (Phase.waiting message process turn subscription).Holds
            (after conditions bridge (.manager process label
              (.hub (.recv subscription))))
            (passed task conditions bridge (.manager process label
              (.hub (.recv subscription))) :: trace) task := by
        intro silent
        refine ⟨watches.step asks.inv task conditions _, sameCourier, ?_, ?_⟩
        · exact known.imp Released.cons fun held =>
            held.step task conditions fun _ _ same => by cases same
        · intro timely ended hears'
          have before := (heard_received receives
            (attends timely.1.attentive)).2 silent ended
          unfold heard at hears'
          rw [unread] at hears'
          exact (hears timely.2 ended (before hears')).cons
      rw [answered]
      cases got : (Hub.exec conditions.manager.now (hubOf bridge process)
          (.recv subscription)).1 with
      | error error =>
          apply stays
          intro event same
          rw [got] at same
          cases same
      | ok event =>
          show ((ending event).elim _ _ : Phase).Holds _ _ task
          cases tells : ending event with
          | none =>
              apply stays
              intro other same
              rw [got] at same
              cases same
              exact tells
          | some ended =>
              refine ⟨message, process, turn, ended, [], watches.handles.cons,
                sameCourier, rfl, ?_⟩
              intro timely
              have first := (heard_received receives
                (attends timely.1.attentive)).1 event ended got tells
              exact (hears timely.2 ended first).cons
  | _ => exact allowed.elim

/-- A text is no answer, or the next part of one. -/
theorem holds_send {roomId text : String} {txnId : Option String}
    (asks : Asks config task ⟨owned, phase⟩ bridge trace
      (.send roomId text txnId)) (conditions : Conditions) :
    (phase.next (.send roomId text txnId)
      (Bridge.exec conditions bridge (.send roomId text txnId)).1).Holds
      (after conditions bridge (.send roomId text txnId))
      (passed task conditions bridge (.send roomId text txnId) :: trace)
      task := by
  have allowed : phase.Allows _ := asks.allowed.1
  have holds : phase.Holds bridge trace task := asks.own.phase
  have carried : courier task
      (passed task conditions bridge (.send roomId text txnId) :: trace) =
        (courier task trace).map fun courier =>
          { courier with sent := courier.sent ++ [{ roomId, text, txnId }] } :=
    courier_self task bridge _ _
  cases phase with
  | handling message =>
      refine ⟨holds.1.cons, ?_⟩
      rw [carried, holds.2]
      rfl
  | listening message process' id' subscription =>
      refine ⟨holds.1.step asks.inv task conditions _, ?_⟩
      rw [carried, holds.2]
      rfl
  | answering left =>
      obtain ⟨message, process', turn, ended, sent, handles, started, answers,
        own⟩ := holds
      obtain ⟨rest, rfl⟩ := List.head?_eq_some_iff.mp allowed
      refine ⟨message, process', turn, ended,
        sent ++ [⟨roomId, text, txnId⟩], handles.cons, ?_, ?_,
        fun timely => (own timely.2).cons⟩
      · rw [carried, started]
        rfl
      · rw [← answers]
        exact List.append_assoc _ _ _
  | _ => exact allowed.elim

theorem holds_turning {turn : Manager.Turn} {section_ : Manager.Section}
    (asks : Asks config task ⟨owned, .turning process turn⟩ bridge trace
      (.manager process label section_))
    (kept : ∀ id permit, section_ ≠ .release id permit)
    (conditions : Conditions) :
    (Phase.turning process turn).Holds
      (after conditions bridge (.manager process label section_))
      (passed task conditions bridge (.manager process label section_) :: trace)
      task := by
  obtain ⟨held, spawned⟩ := asks.own.phase
  refine ⟨held.step task conditions ?_, spawned.cons⟩
  intro label' permit' here
  cases here
  exact kept _ _ rfl

end Next

/-- What a task does keeps what holds of its phase. -/
theorem holds_next {stage : Stage}
    (asks : Asks config task stage bridge trace request)
    (conditions : Conditions) :
    (stage.phase.next request (Bridge.exec conditions bridge request).1).Holds
      (after conditions bridge request)
      (passed task conditions bridge request :: trace) task := by
  by_cases quiet : Quiet request
  · rw [next_of_quiet quiet]
    exact asks.own.phase.quiet asks.inv quiet asks.ready conditions
  obtain ⟨owned, phase⟩ := stage
  have allowed : phase.Allows request := asks.allowed.1
  cases request with
  | handle message =>
      cases phase with
      | arrived =>
          refine ⟨⟨bridge, List.mem_cons_self⟩, ?_⟩
          have unsent : courier task trace = none := asks.own.phase
          exact (courier_self task bridge _ _).trans unsent
      | _ => exact allowed.elim
  | send roomId text txnId => exact holds_send asks conditions
  | manager process label section_ =>
      cases section_ with
      | tryBegin id => exact holds_tryBegin asks conditions
      | spawn turn => exact holds_spawn asks conditions
      | release id permit =>
          obtain ⟨turn, rfl, _, _⟩ := phase_of_release allowed
          trivial
      | hub request =>
          cases request with
          | slot id => exact holds_slot asks conditions
          | subscribe id slot => exact holds_subscribe asks conditions
          | diffuse id event =>
              obtain ⟨turn, rfl, _, _⟩ := phase_of_diffuse allowed
              exact holds_turning asks nofun conditions
          | recv subscription => exact holds_recv asks conditions
          | unsubscribe subscription =>
              exact (quiet (Or.inr ⟨_, _, _, rfl⟩)).elim
          | _ => exact (quiet (Or.inl trivial)).elim
      | _ => exact (quiet (Or.inl trivial)).elim
  | _ => exact (quiet (Or.inl trivial)).elim

/-- A subscription that a task makes is its own. -/
theorem owned_next {stage : Stage}
    (asks : Asks config task stage bridge trace request)
    (conditions : Conditions) :
    ∀ used ∈ Stage.keep stage.owned request
        (Bridge.exec conditions bridge request).1,
      owner used.1 used.2 (passed task conditions bridge request :: trace) =
        some task := by
  have old : ∀ used ∈ stage.owned, owner used.1 used.2
      (passed task conditions bridge request :: trace) = some task := by
    intro used member
    have mine := asks.own.owned used member
    exact (owner_step (asks.inv.receivers mine) task conditions request).trans
      mine
  cases request with
  | manager process label section_ =>
      cases section_ with
      | hub request =>
          cases request with
          | subscribe id slot =>
              intro used member
              rcases List.mem_cons.mp member with new | before
              · subst new
                exact if_pos ⟨rfl, rfl⟩
              · exact old used before
          | _ => exact old
      | _ => exact old
  | _ => exact old

theorem Own.next {stage : Stage}
    (asks : Asks config task stage bridge trace request)
    (conditions : Conditions) :
    Own (after conditions bridge request)
      (passed task conditions bridge request :: trace) task
      (stage.next request (Bridge.exec conditions bridge request).1) where
  standing := by
    rw [standing_self, asks.own.standing]
    exact (seen_next asks.allowed.1 _).symm
  owned := owned_next asks conditions
  phase := holds_next asks conditions

theorem spawned_step {stage : Stage} {turn : Manager.Turn}
    (asks : Asks config task stage bridge trace request)
    (spawned : Spawned (passed task conditions bridge request :: trace) process
      turn) :
    Spawned trace process turn ∨
      Unspawned trace process turn.permit ∧
        Held bridge trace process turn.session turn.permit ∧
        ∃ label, request = .manager process label (.spawn turn) := by
  rcases spawned_cases spawned with ⟨label, here⟩ | earlier
  · obtain rfl : request = .manager process label (.spawn turn) := here
    obtain ⟨watch, phase⟩ := phase_of_spawn asks.allowed.1
    obtain ⟨held, unspawned, _⟩ := phase ▸ asks.own.phase
    exact Or.inr ⟨unspawned, held, label, rfl⟩
  · exact Or.inl earlier

theorem permits_le (conditions : Conditions) (bridge : Bridge parts)
    (request : Request) (process : ℕ) :
    (gateOf bridge process).2 ≤
      (gateOf (after conditions bridge request) process).2 := by
  by_cases begins : ∃ label id, request = .manager process label (.tryBegin id)
  · obtain ⟨label, id, rfl⟩ := begins
    rcases tryBegin_cases conditions bridge process label id with
      ⟨_, _, _, permits⟩ | ⟨_, _, _, permits⟩
    · exact permits.ge
    · rw [permits]
      exact Nat.le_succ _
  by_cases releases : ∃ label id permit,
      request = .manager process label (.release id permit)
  · obtain ⟨label, id, permit, rfl⟩ := releases
    rw [release_self]
  · have same := gate_other conditions bridge
      (fun label id here => begins ⟨label, id, here⟩)
      fun label id permit here => releases ⟨label, id, permit, here⟩
    rw [same]

theorem slotOf_step {id : SessionId} {slot : ℕ}
    (known : SlotOf (passed task conditions bridge request :: trace) process id
      slot) :
    SlotOf trace process id slot ∨ ∃ label,
      request = .manager process label (.hub (.slot id)) ∧
        slot = ((hubOf bridge process).slot id).1 := by
  rcases slotOf_cases known with ⟨task', before, label, here⟩ | earlier
  · right
    have sameRequest := congrArg Occurrence.request here
    obtain rfl : request = .manager process label (.hub (.slot id)) :=
      sameRequest
    cases here
    exact ⟨label, rfl, rfl⟩
  · exact Or.inl earlier

theorem Sound.slots_step (sound : Sound bridge trace) {id : SessionId}
    {slot : ℕ}
    (found : (hubOf (after conditions bridge request) process).slots id =
      some slot) :
    SlotOf (passed task conditions bridge request :: trace) process id slot := by
  by_cases asked : ∃ label section_,
      request = .manager process label (.hub section_)
  · obtain ⟨label, section_, rfl⟩ := asked
    rw [hub_self] at found
    rcases Hub.slots_exec found with before | ⟨rfl, rfl⟩
    · exact (sound.slots before).cons
    · exact ⟨task, bridge, label, List.mem_cons_self⟩
  · rw [hub_other fun label section_ here => asked ⟨label, section_, here⟩]
      at found
    exact (sound.slots found).cons

theorem Sound.made_step (sound : Sound bridge trace) {id : SessionId}
    {slot : ℕ}
    (known : SlotOf (passed task conditions bridge request :: trace) process id
      slot) :
    slot < (hubOf (after conditions bridge request) process).made := by
  have grows : (hubOf bridge process).made ≤
      (hubOf (after conditions bridge request) process).made := by
    by_cases asked : ∃ label section_,
        request = .manager process label (.hub section_)
    · obtain ⟨label, section_, rfl⟩ := asked
      rw [hub_self]
      exact Hub.made_le _ _ _
    · rw [hub_other fun label section_ here => asked ⟨label, section_, here⟩]
  rcases slotOf_step known with earlier | ⟨label, rfl, rfl⟩
  · exact Nat.lt_of_lt_of_le (sound.made earlier) grows
  · rw [hub_self]
    rcases (hubOf bridge process).slot_cases id with
      ⟨found, _, made, _⟩ | ⟨given, _, made, _⟩
    · show _ < ((hubOf bridge process).slot id).2.made
      rw [made]
      exact sound.made (sound.slots found)
    · show _ < ((hubOf bridge process).slot id).2.made
      rw [made, given]
      exact Nat.lt_succ_self _

theorem Sound.unique_step (sound : Sound bridge trace) {id other : SessionId}
    {slot : ℕ}
    (known : SlotOf (passed task conditions bridge request :: trace) process id
      slot)
    (also : SlotOf (passed task conditions bridge request :: trace) process
      other slot) : id = other := by
  have given : ∀ {id other label}, SlotOf trace process other slot →
      request = .manager process label (.hub (.slot id)) →
      slot = ((hubOf bridge process).slot id).1 → id = other := by
    intro id other label earlier _ same
    rcases (hubOf bridge process).slot_cases id with
      ⟨found, _⟩ | ⟨new, _⟩
    · rw [← same] at found
      exact sound.unique (sound.slots found) earlier
    · have old := sound.made earlier
      rw [same, new] at old
      exact (Nat.lt_irrefl _ old).elim
  rcases slotOf_step known with earlier | ⟨label, here, same⟩
  · rcases slotOf_step also with alsoEarlier | ⟨label, here, same⟩
    · exact sound.unique earlier alsoEarlier
    · exact (given earlier here same).symm
  · rcases slotOf_step also with alsoEarlier | ⟨label', here', same'⟩
    · exact given alsoEarlier here same
    · rw [here] at here'
      cases here'
      rfl

theorem Sound.receivers_step (sound : Sound bridge trace)
    {subscription : Subscription} {holder : ℕ} {stage : Stage}
    (asks : Asks config task stage bridge trace request)
    (owned : owner process subscription
      (passed task conditions bridge request :: trace) = some holder) :
    (hubOf (after conditions bridge request) process).Made subscription := by
  by_cases before : ∃ other, owner process subscription trace = some other
  · obtain ⟨other, before⟩ := before
    exact made_after (sound.receivers before) conditions asks.ready
  have unowned : owner process subscription trace ≠ some holder :=
    fun mine => before ⟨holder, mine⟩
  cases request with
  | manager process' label section_ =>
      cases section_ with
      | hub request =>
          cases request with
          | subscribe id slot =>
              by_cases same : process' = process ∧
                  ({ slot, receiver := (Bridge.exec conditions bridge
                    (.manager process' label
                      (.hub (.subscribe id slot)))).1 } : Subscription) =
                    subscription
              · obtain ⟨rfl, rfl⟩ := same
                have known : SlotOf trace process' id slot := by
                  have allowed := asks.allowed.1
                  have holds := asks.own.phase
                  obtain ⟨subscriptions, phase⟩ := stage
                  cases phase with
                  | slotted message process id' slot' =>
                      obtain ⟨rfl, rfl, rfl⟩ := allowed
                      exact holds.1
                  | _ => exact allowed.elim
                have answered : (Bridge.exec conditions bridge (.manager process'
                    label (.hub (.subscribe id slot)))).1 =
                      ((hubOf bridge process').feed slot).made :=
                  parts.channels.subscribe_fst _
                rw [answered, hub_self]
                refine ⟨sound.made known, ?_⟩
                simp only [Hub.exec, Hub.feed_setSender, if_true,
                  parts.channels.feed_subscribe]
                exact Nat.lt_succ_self _
              · exact (unowned ((if_neg same).symm.trans owned)).elim
          | _ => exact (unowned owned).elim
      | _ => exact (unowned owned).elim
  | _ => exact (unowned owned).elim

/-- What a task has sent is what the answers say. -/
theorem answersOwn_step {stage : Stage}
    (asks : Asks config task stage bridge trace request)
    (own : AnswersOwn trace)
    (timely : Throughout Timely
      (passed task conditions bridge request :: trace)) :
    AnswersOwn (passed task conditions bridge request :: trace) := by
  intro other started found
  have older : ∀ {started}, courier other trace = some started →
      started.sent = [] ∨ ∃ message ended,
        Handles (passed task conditions bridge request :: trace) other message ∧
        Ended (passed task conditions bridge request :: trace) started.process
          started.turn ended ∧ started.sent <+: answer message ended := by
    intro started before
    rcases own other started before with empty | ⟨message, ended, handles, told,
      begins⟩
    · exact Or.inl empty
    · exact Or.inr ⟨message, ended, handles.cons, told.cons, begins⟩
  by_cases mine : task = other
  · subst mine
    have holds := holds_next asks conditions
    by_cases sends : ∃ roomId text txnId, request = .send roomId text txnId
    · obtain ⟨roomId, text, txnId, rfl⟩ := sends
      have allowed := asks.allowed.1
      obtain ⟨owned, phase⟩ := stage
      cases phase with
      | handling message =>
          obtain ⟨_, unsent⟩ := holds
          rw [unsent] at found
          cases found
      | listening message process id subscription =>
          obtain ⟨_, unsent⟩ := holds
          rw [unsent] at found
          cases found
      | answering left =>
          obtain ⟨message, process, turn, ended, sent, handles, now, answers,
            told⟩ := holds
          rw [now] at found
          cases found
          exact Or.inr ⟨message, ended, handles, told timely, _, answers⟩
      | _ => exact allowed.elim
    · rw [courier_self] at found
      cases request with
      | send roomId text txnId => exact (sends ⟨_, _, _, rfl⟩).elim
      | manager process label section_ =>
          cases section_ with
          | spawn turn =>
              cases found
              exact Or.inl rfl
          | _ => exact older found
      | _ => exact older found
  · rw [courier_other mine] at found
    exact older found

/-- A turn has one courier. -/
theorem once_step {stage : Stage} {one other : ℕ} {first second : Courier}
    (asks : Asks config task stage bridge trace request)
    (found : courier one (passed task conditions bridge request :: trace) =
      some first)
    (also : courier other (passed task conditions bridge request :: trace) =
      some second)
    (sameProcess : first.process = second.process)
    (samePermit : first.turn.permit = second.turn.permit) : one = other := by
  have cases_ : ∀ {holder started},
      courier holder (passed task conditions bridge request :: trace) =
        some started →
      (∃ before, courier holder trace = some before ∧
        before.process = started.process ∧ before.turn = started.turn) ∨
      (holder = task ∧
        Unspawned trace started.process started.turn.permit) := by
    intro holder started found
    by_cases mine : task = holder
    · subst mine
      rw [courier_self] at found
      cases request with
      | send roomId text txnId =>
          obtain ⟨before, same, rfl⟩ := Option.map_eq_some_iff.mp found
          exact Or.inl ⟨before, same, rfl, rfl⟩
      | manager process label section_ =>
          cases section_ with
          | spawn turn =>
              cases found
              obtain ⟨watch, phase⟩ := phase_of_spawn asks.allowed.1
              obtain ⟨_, unspawned, _⟩ := phase ▸ asks.own.phase
              exact Or.inr ⟨rfl, unspawned⟩
          | _ => exact Or.inl ⟨started, found, rfl, rfl⟩
      | _ => exact Or.inl ⟨started, found, rfl, rfl⟩
    · rw [courier_other mine] at found
      exact Or.inl ⟨started, found, rfl, rfl⟩
  rcases cases_ found with ⟨before, known, process_, turn_⟩ | ⟨rfl, new⟩
  · rcases cases_ also with ⟨before', known', process', turn'⟩ | ⟨rfl, new⟩
    · apply asks.inv.once known known'
      · rw [process_, process', sameProcess]
      · rw [turn_, turn', samePermit]
    · have spawned := (spawned_of_courier known).1
      rw [process_, turn_, sameProcess] at spawned
      exact (new _ spawned samePermit).elim
  · rcases cases_ also with ⟨before', known', process', turn'⟩ | ⟨rfl, _⟩
    · have spawned := (spawned_of_courier known').1
      rw [process', turn', ← sameProcess] at spawned
      exact (new _ spawned samePermit.symm).elim
    · rfl

theorem Sound.step {stage : Stage} (sound : Sound bridge trace)
    (asks : Asks config task stage bridge trace request)
    (conditions : Conditions) :
    Sound (after conditions bridge request)
      (passed task conditions bridge request :: trace) where
  slots := sound.slots_step
  made := sound.made_step
  unique := sound.unique_step
  receivers := sound.receivers_step asks
  given := by
    intro process turn spawned
    have grows := permits_le conditions bridge request process
    rcases spawned_step asks spawned with earlier | ⟨_, held, _⟩
    · exact Nat.lt_of_lt_of_le (sound.given earlier) grows
    · exact Nat.lt_of_lt_of_le held.given grows
  same := by
    intro process turn other spawned also samePermit
    rcases spawned_step asks spawned with earlier | ⟨new, _, label, here⟩
    · rcases spawned_step asks also with alsoEarlier | ⟨new, _, label, here⟩
      · exact sound.same earlier alsoEarlier samePermit
      · exact (new _ earlier samePermit).elim
    · rcases spawned_step asks also with alsoEarlier | ⟨_, _, label', here'⟩
      · exact (new _ alsoEarlier samePermit.symm).elim
      · rw [here] at here'
        cases here'
        rfl
  once := once_step asks
  own timely := answersOwn_step asks (sound.own timely.2) timely

theorem unmoved (absent : ∀ passage ∈ trace, passage.task ≠ task) :
    standing task trace = .arrived ∧ courier task trace = none := by
  induction trace with
  | nil => exact ⟨rfl, rfl⟩
  | cons passage earlier induction =>
      have other := absent passage List.mem_cons_self
      obtain ⟨stands, unsent⟩ := induction fun past member =>
        absent past (List.mem_cons_of_mem _ member)
      exact ⟨(standing_other other).trans stands,
        (courier_other other).trans unsent⟩

theorem given_of_token {stage : Stage} {held : ℕ × ℕ}
    (own : Own bridge trace task stage) (has : stage.phase.token = some held) :
    held.2 < (gateOf bridge held.1).2 := by
  have holds := own.phase
  obtain ⟨owned, phase⟩ := stage
  cases phase with
  | permitted watch process id permit =>
      cases has
      exact holds.1.given
  | turning process turn =>
      cases has
      exact holds.1.given
  | _ => cases has

/-- A task has the permit that it had, or a new one. -/
theorem token_next {stage : Stage} {held : ℕ × ℕ}
    (allowed : stage.Allows request)
    (has : (stage.phase.next request
      (Bridge.exec conditions bridge request).1).token = some held) :
    stage.phase.token = some held ∨ held.2 = (gateOf bridge held.1).2 := by
  by_cases quiet : Quiet request
  · rw [next_of_quiet quiet] at has
    exact Or.inl has
  obtain ⟨owned, phase⟩ := stage
  have allowed : phase.Allows request := allowed.1
  cases request with
  | handle message =>
      cases phase with
      | arrived => cases has
      | _ => exact allowed.elim
  | send roomId text txnId =>
      cases phase with
      | handling message => cases has
      | listening message process id subscription => cases has
      | answering left => cases has
      | _ => exact allowed.elim
  | manager process label section_ =>
      cases section_ with
      | tryBegin id =>
          rcases tryBegin_cases conditions bridge process label id with
            ⟨error, refused, _⟩ | ⟨given, _⟩
          · rw [refused] at has
            cases phase with
            | calm => cases has
            | listening message process' id' subscription => cases has
            | _ => exact allowed.elim
          · rw [given] at has
            right
            cases phase with
            | calm =>
                cases has
                rfl
            | listening message process' id' subscription =>
                obtain ⟨rfl, rfl⟩ := allowed
                cases has
                rfl
            | _ => exact allowed.elim
      | spawn turn =>
          obtain ⟨watch, rfl⟩ := phase_of_spawn allowed
          cases watch <;> cases has
      | release id permit =>
          obtain ⟨turn, rfl, _, _⟩ := phase_of_release allowed
          cases has
      | hub request =>
          cases request with
          | slot id =>
              cases phase with
              | calm => cases has
              | handling message => cases has
              | listening message process id subscription => cases has
              | _ => exact allowed.elim
          | subscribe id slot =>
              cases phase with
              | slotted message process' id' slot' =>
                  cases message <;> cases has
              | _ => exact allowed.elim
          | diffuse id event =>
              obtain ⟨turn, rfl, _, _⟩ := phase_of_diffuse allowed
              exact Or.inl has
          | recv subscription =>
              cases phase with
              | calm => cases has
              | waiting message process' turn subscription' =>
                  cases got : (Bridge.exec conditions bridge (.manager process
                      label (.hub (.recv subscription)))).1 with
                  | error error =>
                      rw [got] at has
                      cases has
                  | ok event =>
                      rw [got] at has
                      have silent : ((ending event).elim
                          (.waiting message process' turn subscription')
                          fun ended => .answering (answer message ended) :
                            Phase).token = some held := has
                      cases tells : ending event with
                      | none =>
                          rw [tells] at silent
                          cases silent
                      | some ended =>
                          rw [tells] at silent
                          cases silent
              | _ => exact allowed.elim
          | unsubscribe subscription =>
              exact (quiet (Or.inr ⟨_, _, _, rfl⟩)).elim
          | _ => exact (quiet (Or.inl trivial)).elim
      | _ => exact (quiet (Or.inl trivial)).elim
  | _ => exact (quiet (Or.inl trivial)).elim

theorem spawns_cases {call : Call} (spawned : spawns request = some call) :
    ∃ process label turn, request = .manager process label (.spawn turn) ∧
      call = .manager process (.turn turn) := by
  cases request with
  | manager process label section_ =>
      cases section_ with
      | spawn turn =>
          cases spawned
          exact ⟨process, label, turn, rfl, rfl⟩
      | _ => cases spawned
  | _ => cases spawned

theorem exchanges_outline :
    Outline (system parts config) exchanges Outside
      (fun stage => stage.phase.token) Sound
      (fun task stage bridge trace => Own bridge trace task stage) where
  obeys := program_obeys
  begins := by
    intro call task bridge trace outside sound past
    obtain ⟨stands, unsent⟩ := unmoved fun passage member =>
      Nat.ne_of_lt (past passage member)
    cases call with
    | deliver process reads message => exact ⟨stands, nofun, unsent⟩
    | listen process reads subject id => exact ⟨stands, nofun, trivial⟩
    | manager process call =>
        cases call with
        | turn turn => exact outside.elim
        | _ => exact ⟨stands, nofun, trivial⟩
  bare := by
    intro call outside
    cases call with
    | manager process call =>
        cases call with
        | turn turn => exact outside.elim
        | _ => rfl
    | _ => rfl
  keeps asks conditions := asks.inv.step asks conditions
  reaches asks conditions := Own.next asks conditions
  renews := by
    intro task stage bridge trace request asks conditions held has
    rcases token_next asks.allowed has with before | new
    · exact Or.inl before
    · right
      intro other otherStage own otherHas
      have old := given_of_token own otherHas
      rw [new] at old
      exact Nat.lt_irrefl _ old
  frames := by
    intro task stage bridge trace request asks conditions other otherStage
      different own apart
    exact own.frame asks conditions different apart
  spawned := by
    intro task stage bridge trace request asks conditions call other spawned
      later past
    obtain ⟨process, label, turn, rfl, rfl⟩ := spawns_cases spawned
    obtain ⟨watch, phase⟩ := phase_of_spawn asks.allowed.1
    obtain ⟨held, _, _⟩ := phase ▸ asks.own.phase
    have absent : ∀ passage ∈ passed task conditions bridge
        (.manager process label (.spawn turn)) :: trace,
        passage.task ≠ other := by
      intro passage member
      rcases List.mem_cons.mp member with here | earlier
      · subst here
        exact Nat.ne_of_lt later
      · exact Nat.ne_of_lt (past passage earlier)
    refine ⟨(unmoved absent).1, nofun, ?_, ?_⟩
    · exact held.step task conditions fun _ _ same => by cases same
    · exact ⟨task, bridge, label, List.mem_cons_self⟩
  passes := by
    intro task stage bridge trace request asks conditions call held spawned has
    obtain ⟨process, label, turn, rfl, rfl⟩ := spawns_cases spawned
    obtain ⟨watch, phase⟩ := phase_of_spawn asks.allowed.1
    cases has
    refine ⟨congrArg Phase.token phase, ?_⟩
    show (stage.phase.next _ _).token ≠ _
    rw [phase]
    cases watch <;> exact nofun

/-- The managers of the processes before any call. -/
def newManagers (parts : Parts) (limits : ℕ → Limits)
    (admins : ℕ → String → Bool) (audit : ℕ → Bool) (capacity : ℕ → ℕ)
    (process : ℕ) : Manager parts :=
  Manager.new parts (limits process) (admins process)
    (Hub.new parts.channels (audit process) (capacity process))

/-- Before any call nothing has been given. -/
theorem sound_new (limits : ℕ → Limits) (admins : ℕ → String → Bool)
    (audit : ℕ → Bool) (capacity : ℕ → ℕ) :
    Sound (Bridge.new parts (newManagers parts limits admins audit capacity))
      [] := by
  refine ⟨?_, ?_, ?_, ?_, ?_, ?_, ?_, ?_⟩
  · intro process id slot found
    cases found
  · intro process id slot known
    obtain ⟨_, _, _, member⟩ := known
    cases member
  · intro process id other slot known
    obtain ⟨_, _, _, member⟩ := known
    cases member
  · intro process subscription task owned
    cases owned
  · intro process turn spawned
    obtain ⟨_, _, _, member⟩ := spawned
    cases member
  · intro process turn other spawned
    obtain ⟨_, _, _, member⟩ := spawned
    cases member
  · intro one other first second found
    cases found
  · intro _ task started found
    cases found

/-- In every run that meets the conditions, what a message sends once it has
started a turn tells how this turn ended, and no other message tells it. -/
theorem answered_own (config : ChatConfig) (limits : ℕ → Limits)
    (admins : ℕ → String → Bool) (audit : ℕ → Bool) (capacity : ℕ → ℕ)
    (moves : List (Move Call Conditions))
    (outside : ∀ move ∈ moves, move.Admitted Outside)
    (timely : Throughout Timely ((system parts config).run
      (Bridge.new parts (newManagers parts limits admins audit capacity))
      moves).trace) :
    ∀ earlier, earlier <+: moves → Answered ((system parts config).run
      (Bridge.new parts (newManagers parts limits admins audit capacity))
      earlier).trace := by
  intro earlier begins_
  obtain ⟨stages, outlined⟩ := exchanges_outline.run
    (sound_new limits admins audit capacity) earlier
    fun move member => outside move (begins_.subset member)
  have sound := outlined.inv
  exact ⟨sound.own (System.throughout_of_earlier begins_ timely), sound.once⟩

/-- Runs from the start, with the settings by default. -/
def exchanged (moves : List (Move Call Conditions)) :
    Trace ⟨Ring.broadcast SessionEvent, TurnGate.listed⟩ :=
  ((system ⟨Ring.broadcast SessionEvent, TurnGate.listed⟩
    ChatConfig.default).run (Bridge.new _ (newManagers _
      (fun _ => ⟨8, 1000⟩) (fun _ _ => false) (fun _ => false)
      fun _ => 256)) moves).trace

/-- A text of Alice in a room. -/
def bonjour : MatrixMessage :=
  { roomId := "!room:srv", eventId := "$e", sender := "@alice:srv"
    body := "bonjour", timestampMs := 0 }

/-- A turn whose response is a text. -/
def replies (text : String) : Conditions :=
  { manager := { events := [.turnEnded 1 .valid text] } }

/-- The message opens a session, starts a turn and sends its response; a second
one starts another turn of the session and sends the response of that one. -/
def conversation : List (Move Call Conditions) :=
  [.start (.deliver 0 3 bonjour)] ++ List.replicate 45 (.step 0 {}) ++
    List.replicate 9 (.step 1 (replies "salut")) ++
    List.replicate 3 (.step 0 {}) ++
    [.start (.deliver 0 3 { bonjour with eventId := "$f", body := "encore" })] ++
    List.replicate 29 (.step 2 {}) ++
    List.replicate 9 (.step 3 (replies "bien")) ++
    List.replicate 3 (.step 2 {})

theorem answered_own_conversation : Answered (exchanged conversation) := by
  have outside : ∀ move ∈ conversation, move.Admitted Outside := by
    intro move member
    cases move with
    | step task conditions => trivial
    | start call =>
        simp only [conversation, List.mem_append, List.mem_singleton,
          List.mem_replicate, reduceCtorEq, and_false, or_false,
          Move.start.injEq] at member
        rcases member with rfl | rfl <;> trivial
  exact answered_own ChatConfig.default (fun _ => ⟨8, 1000⟩)
    (fun _ _ => false) (fun _ => false) (fun _ => 256) conversation outside
    (by decide +kernel) conversation (List.prefix_refl _)

/-- A turn that was started from elsewhere ends between the subscription of
the message and its permit. -/
def crossing : List (Move Call Conditions) :=
  [.start (.deliver 0 3 bonjour)] ++ List.replicate 28 (.step 0 {}) ++
    [.start (.manager 0 (.send "alice" "s" "autre" none))] ++
    List.replicate 10 (.step 1 {}) ++
    List.replicate 4 (.step 2 (replies "autre")) ++
    List.replicate 7 (.step 0 {}) ++ List.replicate 5 (.step 2 {}) ++
    List.replicate 13 (.step 0 {})

/-- The message then answers with the end of that other turn. -/
theorem answered_other :
    ¬ ∀ moves, (∀ move ∈ moves, Move.Admitted Outside move) →
      Answered (exchanged moves) := by
  intro all
  have outside : ∀ move ∈ crossing, move.Admitted Outside := by
    intro move member
    cases move with
    | step task conditions => trivial
    | start call =>
        simp only [crossing, List.mem_append, List.mem_singleton,
          List.mem_replicate, reduceCtorEq, and_false, or_false,
          Move.start.injEq] at member
        rcases member with rfl | rfl <;> trivial
  have answered := all crossing outside
  have other : (courier 0 (exchanged crossing)).map (fun started =>
      (started.turn.permit, started.sent.length)) = some (1, 1) := by
    decide +kernel
  have first : ∀ passage ∈ exchanged crossing, ∀ ended ∈ ends passage,
      ended.2.2.map Manager.Turn.permit = some 0 := by
    decide +kernel
  obtain ⟨started, found, told⟩ := Option.map_eq_some_iff.mp other
  obtain ⟨permit, length⟩ := Prod.mk.inj told
  rcases answered.own 0 started found with
    empty | ⟨message, ended, handles, own, begins_⟩
  · rw [empty] at length
    cases length
  · obtain ⟨task, before, session, event, tells, member⟩ := own
    have ends_ : (started.process, session, some started.turn) ∈ ends
        (⟨task, before, .manager started.process (some started.turn)
          (.hub (.diffuse session event)), ()⟩ :
            Passage ⟨Ring.broadcast SessionEvent, TurnGate.listed⟩) := by
      show Option.map _ (ending event) = _
      rw [tells]
      rfl
    have same := Option.some.inj (first _ member _ ends_)
    rw [permit] at same
    cases same

end MiryadCore.Chat.Bridging.Answers
