import Mathlib.Algebra.GroupWithZero.Nat
import MiryadCore.Control.History
import MiryadCore.Matrix.Sync

/-!
# What a call of `run_sync` hands over

The messages of the responses of the loop are handed over in order, each once,
before the next response is asked for, and the rooms that are joined are those
of accepted invitations.
-/

namespace MiryadCore.Matrix.Sync

/-- The room to which an event invites, where the invitation is accepted. -/
def inviteOf (client : MatrixClient) : Event → Option String
  | .member roomId sender stateKey membership =>
      if (membership = .invite ∧ stateKey = client.ownUser) ∧
          inviteAllowed client.autoJoinFrom sender
      then some roomId else none
  | _ => none

/-- The accepted invitations to a room among events. -/
def invites (client : MatrixClient) (roomId : String) (events : List Event) :
    ℕ :=
  events.countP fun event => inviteOf client event == some roomId

/-- The events of a response of the loop. -/
def received : Turn → List Event
  | ⟨_, _, .sync _, .answered (.ok events)⟩ => events
  | _ => []

/-- The message handed over at a turn. -/
def delivered (turn : Turn) : Option MatrixMessage :=
  match turn.request with
  | .onMessage _ message => some message
  | _ => none

/-- Whether a turn asks to join the room. -/
def joins (roomId : String) (turn : Turn) : ℕ :=
  match turn.request with
  | .join _ asked => if asked = roomId then 1 else 0
  | _ => 0

/-- The accepted invitations to a room of which a turn tells. -/
def invitations (client : MatrixClient) (roomId : String) (turn : Turn) : ℕ :=
  invites client roomId (received turn) +
    match turn with
    | ⟨_, _, .inviteDetails _ asked, .answered (.ok inviter)⟩ =>
        if asked = roomId ∧ inviteAllowed client.autoJoinFrom inviter then 1
        else 0
    | _ => 0

/-- The messages to hand over that came with these turns. -/
def due (client : MatrixClient) (turns : List Turn) : List MatrixMessage :=
  (turns.flatMap received).filterMap (messageOf client.ownUser)

/-- What the turns of a call of the client meet, the oldest first. -/
structure HandsOver (client : MatrixClient) (turns : List Turn) : Prop where
  inOrder : turns.filterMap delivered <+: due client turns
  complete : ∀ early turn late number, turns = early ++ turn :: late →
    turn.request = .sync number → early.filterMap delivered = due client early
  fit : ∀ message ∈ turns.filterMap delivered,
    message.sender ≠ client.ownUser ∧
      (message.msgtype = "m.text" ∨ message.msgtype = "m.emote")
  invited : ∀ roomId, (turns.map (joins roomId)).sum ≤
    4 * (turns.map (invitations client roomId)).sum

/-- The messages to hand over, and the calls that are left to join rooms. -/
structure Debt where
  messages : List MatrixMessage
  calls : String → ℕ

section Debts

variable (deployment : Deployment) (client : ℕ)

def Debt.allows (debt : Debt) : Request → Prop
  | .sync _ => debt.messages = []
  | .onMessage _ message => debt.messages.head? = some message
  | .join _ roomId => 0 < debt.calls roomId
  | _ => True

def Debt.next (debt : Debt) : (request : Request) → request.Told → Debt
  | .sync _, .answered (.ok events) =>
      { messages := debt.messages ++
          events.filterMap (messageOf (deployment.client client).ownUser)
        calls := fun roomId => debt.calls roomId +
          4 * invites (deployment.client client) roomId events }
  | .inviteDetails _ asked, .answered (.ok inviter) =>
      { debt with
        calls := fun roomId => debt.calls roomId +
          4 * if asked = roomId ∧
              inviteAllowed (deployment.client client).autoJoinFrom inviter
            then 1 else 0 }
  | .onMessage _ _, _ => { debt with messages := debt.messages.tail }
  | .join _ asked, _ =>
      { debt with
        calls := fun roomId => debt.calls roomId -
          if asked = roomId then 1 else 0 }
  | _, _ => debt

/-- The debts of the calls of one client. -/
def debts : Protocol Call Request Request.Told Outcome Debt where
  start := fun _ => ⟨[], fun _ => 0⟩
  allows := Debt.allows
  next := Debt.next deployment client
  ends := fun _ _ _ => True

/-- A flow pays as it goes; where it goes on, its debt is such. -/
def Pays {α : Type} (debt : Debt) (query : Flow α) (post : Debt → Prop) :
    Prop :=
  Script.Obeys (debts deployment client) query debt fun after result =>
    ∀ value, result = .ok value → post after

variable {deployment} {client} {α β : Type} {debt : Debt}

theorem Pays.pure {value : α} {post : Debt → Prop} (holds : post debt) :
    Pays deployment client debt (Pure.pure value : Flow α) post :=
  fun _ _ => holds

theorem Pays.fail {exit : Exit} {post : Debt → Prop} :
    Pays deployment client debt (Query.fail exit : Flow α) post :=
  fun _ impossible => by cases impossible

theorem Pays.bind {query : Flow α} {next : α → Flow β}
    {post final : Debt → Prop}
    (first : Pays deployment client debt query post)
    (rest : ∀ value after, post after →
      Pays deployment client after (next value) final) :
    Pays deployment client debt (query >>= next) final := by
  apply Query.obeys_bind
  apply first.mono
  intro after result holds
  cases result with
  | ok value => exact rest value after (holds value rfl)
  | error exit => exact fun _ impossible => by cases impossible

theorem Pays.mono {query : Flow α} {post weaker : Debt → Prop}
    (pays : Pays deployment client debt query post)
    (weakens : ∀ after, post after → weaker after) :
    Pays deployment client debt query weaker := by
  apply Script.Obeys.mono pays
  intro after result holds value same
  exact weakens after (holds value same)

theorem Pays.ask_bind {request : Request} {next : request.Answer → Flow β}
    {final : Debt → Prop} (allowed : debt.allows request)
    (rest : ∀ answer, Pays deployment client
      (debt.next deployment client request (.answered answer)) (next answer)
      final) :
    Pays deployment client debt (ask request >>= next) final := by
  refine ⟨allowed, fun reply => ?_⟩
  cases reply with
  | answered answer => exact rest answer
  | cut how unread => exact fun _ impossible => by cases impossible

theorem pays_statements (script : Script Matrix.Request
    Matrix.Request.Reply α) :
    Pays deployment client debt (statements script) fun after =>
      after = debt := by
  induction script with
  | done value => exact fun _ _ => rfl
  | call request rest induction =>
      refine ⟨trivial, fun reply => ?_⟩
      cases reply with
      | answered answer => exact induction answer
      | cut how unread => exact fun _ impossible => by cases impossible

theorem pays_sleep (secs : ℕ) :
    Pays deployment client debt (ask (.sleep secs)) fun after =>
      after = debt := by
  refine ⟨trivial, fun reply => ?_⟩
  cases reply with
  | answered answer => exact fun _ _ => rfl
  | cut how unread => exact fun _ impossible => by cases impossible

/-- Enough is left to the calls that join rooms, and these messages are to be
handed over. -/
def Owes (messages : List MatrixMessage) (calls : String → ℕ) (debt : Debt) :
    Prop :=
  debt.messages = messages ∧ ∀ roomId, calls roomId ≤ debt.calls roomId

theorem pays_joinLoop {messages : List MatrixMessage} {calls : String → ℕ}
    (roomId : String) (delays : List ℕ)
    (owes : Owes messages (fun other => calls other +
      if roomId = other then delays.length + 1 else 0) debt) :
    Pays deployment client debt (joinLoop client roomId delays)
      (Owes messages calls) := by
  have allowed : ∀ {more} {debt : Debt}, Owes messages (fun other =>
      calls other + if roomId = other then more + 1 else 0) debt →
      debt.allows (.join client roomId) := by
    intro more debt owes
    have enough := owes.2 roomId
    dsimp only at enough
    rw [if_pos rfl] at enough
    show 0 < debt.calls roomId
    omega
  have after : ∀ {more} {debt : Debt} (answer), Owes messages (fun other =>
      calls other + if roomId = other then more + 1 else 0) debt →
      Owes messages (fun other => calls other +
          if roomId = other then more else 0)
        (debt.next deployment client (.join client roomId)
          (.answered answer)) := by
    intro more debt answer owes
    refine ⟨owes.1, fun other => ?_⟩
    have enough := owes.2 other
    dsimp only at enough
    show calls other + (if roomId = other then more else 0) ≤
      debt.calls other - if roomId = other then 1 else 0
    by_cases here : roomId = other
    · rw [if_pos here] at enough ⊢
      rw [if_pos here]
      omega
    · rw [if_neg here] at enough ⊢
      rw [if_neg here]
      omega
  have weaker : ∀ {more} {debt : Debt}, Owes messages (fun other =>
      calls other + if roomId = other then more else 0) debt →
      Owes messages calls debt :=
    fun owes => ⟨owes.1, fun other =>
      (Nat.le_add_right _ _).trans (owes.2 other)⟩
  induction delays generalizing debt with
  | nil =>
      apply Pays.ask_bind (allowed owes)
      intro answer
      exact Pays.pure (weaker (after answer owes))
  | cons delay delays induction =>
      apply Pays.ask_bind (allowed owes)
      intro answer
      have rest := after answer owes
      cases answer with
      | ok joined => exact Pays.pure (weaker rest)
      | error error =>
          apply Pays.bind (pays_sleep delay)
          intro _ later same
          subst same
          exact induction rest

theorem pays_acceptInvite {messages : List MatrixMessage}
    {calls : String → ℕ} (roomId inviter : String)
    (owes : Owes messages (fun other => calls other +
      4 * if roomId = other ∧
          inviteAllowed (deployment.client client).autoJoinFrom inviter
        then 1 else 0) debt) :
    Pays deployment client debt (acceptInvite deployment client roomId inviter)
      (Owes messages calls) := by
  unfold acceptInvite
  split
  next allowed =>
    apply pays_joinLoop roomId JOIN_RETRY_DELAYS
    refine ⟨owes.1, fun other => ?_⟩
    have enough := owes.2 other
    dsimp only at enough ⊢
    by_cases here : roomId = other
    · rw [if_pos ⟨here, allowed⟩] at enough
      rw [if_pos here]
      exact enough
    · rw [if_neg here]
      omega
  next refused =>
    apply Pays.pure
    refine ⟨owes.1, fun other => ?_⟩
    exact (Nat.le_add_right _ _).trans (owes.2 other)

/-- What is owed for events: their messages, and four calls for each accepted
invitation. -/
def OwesFor (client : MatrixClient) (events : List Event) (debt : Debt) :
    Prop :=
  Owes (events.filterMap (messageOf client.ownUser))
    (fun roomId => 4 * invites client roomId events) debt

theorem pays_deliver {messages : List MatrixMessage} {calls : String → ℕ}
    (message : Option MatrixMessage)
    (owes : Owes (message.toList ++ messages) calls debt) :
    Pays deployment client debt (deliver client message)
      (Owes messages calls) := by
  cases message with
  | none => exact Pays.pure owes
  | some message =>
      have first : debt.messages.head? = some message := by
        rw [owes.1]
        rfl
      have rest : debt.messages.tail = messages := by
        rw [owes.1]
        rfl
      refine ⟨first, fun reply => ?_⟩
      cases reply with
      | answered _ => exact fun _ _ => ⟨rest, owes.2⟩
      | cut how unread => exact fun _ impossible => by cases impossible

theorem invites_cons (client : MatrixClient) (roomId : String) (event : Event)
    (events : List Event) :
    invites client roomId (event :: events) = invites client roomId events +
      if inviteOf client event = some roomId then 1 else 0 := by
  unfold invites
  rw [List.countP_cons]
  simp only [beq_iff_eq]

theorem pays_handle (event : Event) (events : List Event)
    (owes : OwesFor (deployment.client client) (event :: events) debt) :
    Pays deployment client debt (handle deployment client event)
      (OwesFor (deployment.client client) events) := by
  obtain ⟨messages, calls⟩ := owes
  simp only [invites_cons] at calls
  have fewer : ∀ roomId,
      4 * invites (deployment.client client) roomId events ≤
        debt.calls roomId := by
    intro roomId
    have enough := calls roomId
    omega
  cases event with
  | member roomId sender stateKey membership =>
      dsimp only [handle]
      split
      next mine =>
        apply pays_acceptInvite roomId sender
        refine ⟨messages, fun other => ?_⟩
        have enough := calls other
        have accepted : inviteOf (deployment.client client)
            (.member roomId sender stateKey membership) = some other ↔
            roomId = other ∧
              inviteAllowed (deployment.client client).autoJoinFrom sender := by
          by_cases allowed :
              inviteAllowed (deployment.client client).autoJoinFrom sender
          · simp [inviteOf, mine, allowed]
          · simp [inviteOf, mine, allowed]
        simp only [accepted] at enough
        dsimp only
        omega
      next => exact Pays.pure ⟨messages, fewer⟩
  | original roomId event encrypted =>
      apply pays_deliver
      refine ⟨?_, fewer⟩
      rw [messages, List.filterMap_cons]
      cases messageOf (deployment.client client).ownUser
        (.original roomId event encrypted) with
      | none => rfl
      | some message => rfl
  | redacted roomId => exact Pays.pure ⟨messages, fewer⟩
  | undecryptable roomId eventId => exact Pays.pure ⟨messages, fewer⟩

/-- Nothing is left to hand over. -/
def Settled (debt : Debt) : Prop :=
  debt.messages = []

theorem pays_events (events : List Event)
    (owes : OwesFor (deployment.client client) events debt) :
    Pays deployment client debt (events.forM (handle deployment client))
      Settled := by
  induction events generalizing debt with
  | nil => exact Pays.pure owes.1
  | cons event events induction =>
      show Pays deployment client debt
        (handle deployment client event >>= fun _ =>
          events.forM (handle deployment client)) _
      apply Pays.bind (pays_handle event events owes)
      intro _ after rest
      exact induction rest

theorem pays_readInvite (settled : Settled debt) (roomId : String) :
    Pays deployment client debt (readInvite deployment client roomId)
      Settled := by
  apply Pays.ask_bind
    (show debt.allows (.inviteDetails client roomId) from trivial)
  intro details
  cases details with
  | error error => exact Pays.pure settled
  | ok inviter =>
      have pays : Pays deployment client
          (debt.next deployment client (.inviteDetails client roomId)
            (.answered (.ok inviter)))
          (acceptInvite deployment client roomId inviter)
          (Owes [] fun _ => 0) := by
        apply pays_acceptInvite
        exact ⟨settled, fun other =>
          Nat.add_le_add_right (Nat.zero_le (debt.calls other)) _⟩
      exact pays.mono fun after owes => owes.1

theorem pays_rooms (settled : Settled debt) (rooms : List String) :
    Pays deployment client debt
      (rooms.forM (readInvite deployment client)) Settled := by
  induction rooms generalizing debt with
  | nil => exact Pays.pure settled
  | cons roomId rooms induction =>
      show Pays deployment client debt
        (readInvite deployment client roomId >>= fun _ =>
          rooms.forM (readInvite deployment client)) _
      apply Pays.bind (pays_readInvite settled roomId)
      intro _ after rest
      exact induction rest

theorem pays_initialSync (settled : Settled debt) :
    Pays deployment client debt (initialSync deployment client) Settled := by
  apply Pays.ask_bind (show debt.allows (.syncOnce client) from trivial)
  intro synced
  cases synced with
  | error error => exact Pays.pure settled
  | ok rooms =>
      apply Pays.bind (pays_rooms settled rooms)
      intro _ after rest
      exact Pays.pure rest

theorem pays_tryLease (settled : Settled debt) :
    Pays deployment client debt (tryLease deployment client) Settled := by
  apply Pays.bind (pays_statements _)
  intro taken after same
  subst same
  cases taken with
  | error error => exact Pays.fail
  | ok generation => exact Pays.pure settled

theorem pays_awaitLease (settled : Settled debt) (fuel : ℕ) :
    Pays deployment client debt (awaitLease deployment client fuel)
      Settled := by
  induction fuel generalizing debt with
  | zero => exact Pays.fail
  | succ fuel induction =>
      apply Pays.bind (pays_tryLease settled)
      intro taken after rest
      cases taken with
      | true => exact Pays.pure rest
      | false =>
          apply Pays.bind (pays_sleep LEASE_RETRY)
          intro _ later same
          subst same
          exact induction rest

theorem pays_backOff (settled : Settled debt) (attempt : UInt32) :
    Pays deployment client debt (backOff attempt) Settled := by
  apply Pays.bind (pays_sleep _)
  intro _ after same
  subst same
  exact Pays.pure settled

theorem pays_syncWithCallback (settled : Settled debt) (fuel : ℕ)
    (attempt : UInt32) :
    Pays deployment client debt
      (syncWithCallback deployment client fuel attempt) Settled := by
  induction fuel generalizing debt attempt with
  | zero => exact Pays.fail
  | succ fuel induction =>
      apply Pays.ask_bind (show debt.allows (.sync client) from settled)
      intro response
      cases response with
      | error error => exact Pays.pure settled
      | ok events =>
          have owes : OwesFor (deployment.client client) events
              (debt.next deployment client (.sync client)
                (.answered (.ok events))) := by
            constructor
            · show debt.messages ++ _ = _
              rw [settled, List.nil_append]
            · exact fun roomId => Nat.le_add_left _ _
          apply Pays.bind (pays_events events owes)
          intro _ after rest
          apply Pays.bind (pays_statements _)
          intro renewed later same
          subst same
          cases renewed with
          | error error => exact Pays.pure rest
          | ok generation =>
              cases generation with
              | none => exact Pays.pure rest
              | some generation => exact induction rest 0

theorem pays_syncWhileLeased (settled : Settled debt) (fuel : ℕ)
    (attempt : UInt32) :
    Pays deployment client debt
      (syncWhileLeased deployment client fuel attempt) Settled := by
  induction fuel generalizing debt attempt with
  | zero => exact Pays.fail
  | succ fuel induction =>
      apply Pays.bind (pays_syncWithCallback settled (fuel + 1) attempt)
      intro ended after rest
      obtain ⟨result, attempt⟩ := ended
      cases result with
      | ok _ => exact Pays.pure rest
      | error error =>
          dsimp only
          cases classifySyncError error with
          | unknownToken => exact Pays.fail
          | fatal error => exact Pays.fail
          | retryable =>
              apply Pays.bind (pays_backOff rest attempt)
              intro attempt later settled
              apply Pays.bind (pays_tryLease settled)
              intro taken last settled
              cases taken with
              | false => exact Pays.pure settled
              | true => exact induction settled attempt

theorem pays_driveLoop (settled : Settled debt) (fuel : ℕ)
    (attempt : UInt32) :
    Pays deployment client debt (driveLoop deployment client fuel attempt)
      Settled := by
  induction fuel generalizing debt attempt with
  | zero => exact Pays.fail
  | succ fuel induction =>
      apply Pays.bind (pays_awaitLease settled (fuel + 1))
      intro _ after rest
      apply Pays.bind (pays_initialSync rest)
      intro synced later settled
      cases synced with
      | ok _ =>
          apply Pays.bind (pays_syncWhileLeased settled (fuel + 1) 0)
          intro attempt last settled
          exact induction settled attempt
      | error error =>
          dsimp only
          cases classifySyncError error with
          | unknownToken => exact Pays.fail
          | fatal error => exact Pays.fail
          | retryable =>
              apply Pays.bind (pays_backOff settled attempt)
              intro attempt last settled
              exact induction settled attempt

/-- What follows the `select!` makes no request that a debt concerns. -/
theorem settle_obeys (ended : Except Exit Empty) :
    Script.Obeys (debts deployment client) (settle deployment client ended) debt
      fun _ _ => True := by
  have leaves : ∀ (outcome : Outcome) (debt : Debt),
      Script.Obeys (debts deployment client) (leave client outcome) debt
        fun _ _ => True :=
    fun _ _ => ⟨trivial, fun _ => trivial⟩
  have releases : ∀ result, Script.Obeys (debts deployment client)
      (release deployment client result) debt fun _ _ => True := by
    intro result
    apply Script.Obeys.bind
    have pays : Pays deployment client debt (releaseLease deployment client)
        fun _ => True := by
      apply Pays.bind (pays_statements _)
      intro _ _ _
      exact Pays.pure trivial
    apply Script.Obeys.mono pays
    intro after released _
    cases released with
    | ok _ => exact leaves _ after
    | error exit => exact leaves _ after
  cases ended with
  | ok never => exact never.elim
  | error exit =>
      cases exit with
      | interrupted how =>
          cases how with
          | shutdown => exact releases _
          | dropped => exact leaves _ debt
      | failed error => exact releases _
      | unfinished => trivial

theorem runSync_pays (fuel : ℕ) :
    Script.Obeys (debts deployment client) (runSync deployment client fuel)
      ⟨[], fun _ => 0⟩ fun _ _ => True := by
  refine ⟨trivial, fun reply => ?_⟩
  cases reply with
  | cut how unread => trivial
  | answered started =>
      cases started with
      | true => trivial
      | false =>
          apply Script.Obeys.bind
          have pays : Pays deployment client ⟨[], fun _ => 0⟩
              (drive deployment client fuel) Settled := by
            unfold drive
            split
            next => exact Pays.fail
            next =>
              exact pays_driveLoop
                (show Settled ⟨[], fun _ => 0⟩ from rfl) fuel 0
          apply Script.Obeys.mono pays
          intro after ended _
          exact settle_obeys ended

/-- What the turns of a call tell of its debt. -/
structure Tells (client : MatrixClient) (debt : Debt) (turns : List Turn) :
    Prop where
  messages : turns.filterMap delivered ++ debt.messages = due client turns
  complete : ∀ early turn late number, turns = early ++ turn :: late →
    turn.request = .sync number → early.filterMap delivered = due client early
  calls : ∀ roomId, (turns.map (joins roomId)).sum + debt.calls roomId =
    4 * (turns.map (invitations client roomId)).sum

theorem due_append (client : MatrixClient) (turns more : List Turn) :
    due client (turns ++ more) = due client turns ++ due client more := by
  unfold due
  rw [List.flatMap_append, List.filterMap_append]

theorem due_singleton (client : MatrixClient) (turn : Turn) :
    due client [turn] = (received turn).filterMap (messageOf client.ownUser) := by
  unfold due
  rw [List.flatMap_singleton]

/-- What one turn adds to the debt, it adds to what is told. -/
theorem Tells.add {past : List Turn} {turn : Turn}
    (told : Tells (deployment.client client) debt past)
    (allowed : debt.allows turn.request) :
    Tells (deployment.client client)
      (debt.next deployment client turn.request turn.answer)
      (past ++ [turn]) := by
  have complete : ∀ early turn' late number,
      past ++ [turn] = early ++ turn' :: late →
      turn'.request = .sync number →
      early.filterMap delivered = due (deployment.client client) early := by
    intro early turn' late number split asks
    cases late using List.reverseRecOn with
    | nil =>
        obtain ⟨rfl, rfl⟩ := List.append_inj' split rfl |>.imp_right
          fun same => (List.cons.inj same).1
        rw [asks] at allowed
        have messages := told.messages
        rw [show debt.messages = [] from allowed, List.append_nil] at messages
        exact messages
    | append_singleton late last =>
        rw [← List.cons_append, ← List.append_assoc] at split
        obtain ⟨rfl, _⟩ := List.append_inj' split rfl
        exact told.complete early turn' late number rfl asks
  have messages : ∀ {after : List MatrixMessage},
      (delivered turn).toList ++ after = debt.messages ++
        (received turn).filterMap
          (messageOf (deployment.client client).ownUser) →
      (past ++ [turn]).filterMap delivered ++ after =
        due (deployment.client client) (past ++ [turn]) := by
    intro after same
    have last : [turn].filterMap delivered = (delivered turn).toList := by
      rw [List.filterMap_cons]
      cases delivered turn with
      | none => rfl
      | some message => rfl
    rw [List.filterMap_append, last, List.append_assoc, same, due_append,
      due_singleton, ← told.messages, List.append_assoc]
  have calls : ∀ {after : String → ℕ},
      (∀ roomId, joins roomId turn + after roomId = debt.calls roomId +
        4 * invitations (deployment.client client) roomId turn) →
      ∀ roomId, ((past ++ [turn]).map (joins roomId)).sum + after roomId =
        4 * ((past ++ [turn]).map
          (invitations (deployment.client client) roomId)).sum := by
    intro after same roomId
    have before := told.calls roomId
    have now := same roomId
    simp only [List.map_append, List.sum_append, List.map_cons, List.map_nil,
      List.sum_cons, List.sum_nil]
    omega
  have quiet : delivered turn = none → received turn = [] →
      (∀ roomId, joins roomId turn = 0) →
      (∀ roomId, invitations (deployment.client client) roomId turn = 0) →
      debt.next deployment client turn.request turn.answer = debt →
      Tells (deployment.client client)
        (debt.next deployment client turn.request turn.answer)
        (past ++ [turn]) := by
    intro nothing noEvent noJoin noInvite same
    rw [same]
    refine ⟨messages ?_, complete, calls fun roomId => ?_⟩
    · rw [nothing, noEvent, List.filterMap_nil, List.append_nil]
      rfl
    · rw [noJoin, noInvite, Nat.zero_add]
      rfl
  obtain ⟨task, before, request, reply⟩ := turn
  cases request with
  | sync number =>
      cases reply with
      | cut how unread =>
          exact quiet rfl rfl (fun _ => rfl) (fun _ => rfl) rfl
      | answered response =>
          cases response with
          | error error =>
              exact quiet rfl rfl (fun _ => rfl) (fun _ => rfl) rfl
          | ok events =>
              refine ⟨messages rfl, complete, calls fun roomId => ?_⟩
              exact Nat.zero_add _
  | onMessage number message =>
      have paid : [message] ++ debt.messages.tail = debt.messages := by
        obtain ⟨rest, same⟩ := List.head?_eq_some_iff.mp allowed
        rw [same]
        rfl
      refine ⟨messages ?_, complete, calls fun roomId => ?_⟩
      · exact paid.trans (List.append_nil _).symm
      · exact Nat.zero_add _
  | join number asked =>
      refine ⟨messages (List.append_nil _).symm, complete,
        calls fun roomId => ?_⟩
      have enough : 0 < debt.calls asked := allowed
      show (if asked = roomId then 1 else 0) +
        (debt.calls roomId - if asked = roomId then 1 else 0) =
          debt.calls roomId + 4 * 0
      by_cases here : asked = roomId
      · subst here
        simp only [if_true]
        omega
      · simp only [if_neg here]
        omega
  | inviteDetails number asked =>
      cases reply with
      | cut how unread =>
          exact quiet rfl rfl (fun _ => rfl) (fun _ => rfl) rfl
      | answered details =>
          cases details with
          | error error =>
              exact quiet rfl rfl (fun _ => rfl) (fun _ => rfl) rfl
          | ok inviter =>
              refine ⟨messages (List.append_nil _).symm, complete,
                calls fun roomId => ?_⟩
              show 0 + (debt.calls roomId + 4 * _) =
                debt.calls roomId + 4 * (0 + _)
              rw [Nat.zero_add, Nat.zero_add]
  | swap number => exact quiet rfl rfl (fun _ => rfl) (fun _ => rfl) rfl
  | clear number => exact quiet rfl rfl (fun _ => rfl) (fun _ => rfl) rfl
  | lease statement => exact quiet rfl rfl (fun _ => rfl) (fun _ => rfl) rfl
  | syncOnce number => exact quiet rfl rfl (fun _ => rfl) (fun _ => rfl) rfl
  | sleep secs => exact quiet rfl rfl (fun _ => rfl) (fun _ => rfl) rfl

end Debts

/-- A message that is handed over is neither the client's own nor a notice. -/
theorem of_messageOf {ownUser : String} {event : Event}
    {message : MatrixMessage}
    (is : messageOf ownUser event = some message) :
    message.sender ≠ ownUser ∧
      (message.msgtype = "m.text" ∨ message.msgtype = "m.emote") := by
  cases event with
  | redacted roomId => cases is
  | member roomId sender stateKey membership => cases is
  | undecryptable roomId eventId => cases is
  | original roomId event encrypted =>
      obtain ⟨eventId, sender, msgtype, isReplacement, timestamp⟩ := event
      have delivers : ∀ {kind body : String} {formatted : Option String},
          (if shouldDeliver ownUser sender kind isReplacement then
            some (⟨roomId, eventId, sender, body, formatted, kind, timestamp,
              encrypted⟩ : MatrixMessage) else none) = some message →
          message.sender ≠ ownUser ∧
            (message.msgtype = "m.text" ∨ message.msgtype = "m.emote") := by
        intro kind body formatted same
        split at same
        next delivered =>
          obtain rfl := Option.some.inj same
          simp only [shouldDeliver, Bool.and_eq_true, bne_iff_ne, ne_eq,
            Bool.or_eq_true, beq_iff_eq] at delivered
          exact delivered.1
        next => cases same
      cases msgtype with
      | text body formatted => exact delivers is
      | emote body formatted => exact delivers is
      | notice body formatted => exact delivers is
      | other => cases is

/-- In every run of calls of `run_sync`, each call hands over the messages of
the responses of its loop in order, all of a response before it asks for the
next, and asks at most four times for each accepted invitation to join its
room. -/
theorem hands_over (deployment : Deployment) (leases : Leases)
    (moves : List (Move Call Conditions)) {task : ℕ} {call : Call}
    {left : Script Request Request.Told Outcome}
    (found : ((replicas deployment).run
      { leases, started := fun _ => false } moves).tasks[task]? =
        some (call, left)) :
    HandsOver (deployment.client call.number)
      (((replicas deployment).run
        { leases, started := fun _ => false } moves).turns task) := by
  have goes := System.follows moves found
  have start : Tells (deployment.client call.number) ⟨[], fun _ => 0⟩ [] :=
    ⟨rfl, fun _ _ _ _ split => by simp at split, fun _ => rfl⟩
  have adds : ∀ (debt : Debt) (past : List Turn) (turn : Turn),
      Tells (deployment.client call.number) debt past →
      debt.allows turn.request →
      Tells (deployment.client call.number)
        (debt.next deployment call.number turn.request turn.answer)
        (past ++ [turn]) :=
    fun debt past turn told allowed => told.add allowed
  have told := Script.Obeys.tells adds (runSync_pays call.fuel) goes start
  rw [List.nil_append] at told
  have inOrder : ((((replicas deployment).run
      { leases, started := fun _ => false } moves).turns task).filterMap
        delivered) <+: due (deployment.client call.number)
          (((replicas deployment).run
            { leases, started := fun _ => false } moves).turns task) :=
    ⟨_, told.messages⟩
  refine ⟨inOrder, told.complete, ?_, ?_⟩
  · intro message member
    obtain ⟨event, _, is⟩ := List.mem_filterMap.mp (inOrder.subset member)
    exact of_messageOf is
  · intro roomId
    rw [← told.calls roomId]
    exact Nat.le_add_right _ _

theorem hands_over_twoPods :
    HandsOver (pods.client 1) (twoPods.turns 0) ∧
      ((twoPods.turns 0).filterMap delivered).map (fun told => told.body) =
        ["salut"] :=
  ⟨@hands_over pods ⟨0, ∅⟩ _ 0 ⟨1, 9⟩ _ rfl, rfl⟩

end MiryadCore.Matrix.Sync
