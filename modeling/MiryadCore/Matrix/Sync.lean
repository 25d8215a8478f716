import MiryadCore.Matrix.DeviceCode

/-!
# The synchronisation of an account

A replica takes a lease, synchronises once without telling anything, then
hands over the messages of each response and renews its lease, until it loses
it, fails or is interrupted.  What the server and the application answer, and
where a call is interrupted, is decided by conditions.
-/

namespace MiryadCore.Matrix

/-- `MatrixError::retryable` -/
def MatrixError.retryable : MatrixError → Bool
  | .network _ retryable => retryable
  | .store (.db _) => true
  | _ => false

namespace Sync

def SYNC_LEASE_KEY : String := "miryad.matrix.sync"

/-- In seconds, like the other delays. -/
def LEASE_RETRY : ℕ := 5

def JOIN_RETRY_DELAYS : List ℕ := [1, 2, 4]

structure MatrixMessage where
  roomId : String
  eventId : String
  sender : String
  body : String
  formattedBody : Option String
  msgtype : String
  timestampMs : UInt64
  encrypted : Bool
  deriving DecidableEq, Repr

/-- The kinds of content of a message, with the body and its HTML. -/
inductive MessageType where
  | text (body : String) (formatted : Option String)
  | emote (body : String) (formatted : Option String)
  | notice (body : String) (formatted : Option String)
  | other
  deriving DecidableEq, Repr

structure OriginalMessage where
  eventId : String
  sender : String
  msgtype : MessageType
  isReplacement : Bool
  originServerTs : UInt64
  deriving DecidableEq, Repr

inductive Membership where
  | invite
  | other
  deriving DecidableEq, Repr

/-- The events of a response for which there are handlers. -/
inductive Event where
  | original (roomId : String) (event : OriginalMessage) (encrypted : Bool)
  | redacted (roomId : String)
  | member (roomId sender stateKey : String) (membership : Membership)
  | undecryptable (roomId eventId : String)
  deriving DecidableEq, Repr

def shouldDeliver (ownUser sender msgtype : String) (isReplacement : Bool) :
    Bool :=
  sender != ownUser && (msgtype == "m.text" || msgtype == "m.emote") &&
    !isReplacement

def inviteAllowed (autoJoinFrom : List String) (inviter : String) : Bool :=
  autoJoinFrom.any fun entry => entry == inviter

/-- `2 * sync_timeout_ms + 15_000`, saturated. -/
def leaseMs (syncTimeoutMs : UInt64) : UInt32 :=
  UInt32.ofNat (min
    (min (min (syncTimeoutMs.toNat * 2) (2 ^ 64 - 1) + 15000) (2 ^ 64 - 1))
    (2 ^ 32 - 1))

/-- In seconds. -/
def backoff (attempt : UInt32) : ℕ :=
  min (if attempt.toNat < 64 then 2 ^ attempt.toNat else 2 ^ 64 - 1) 60

/-- `u32::saturating_add` of one. -/
def nextAttempt (attempt : UInt32) : UInt32 :=
  if attempt.toNat + 1 < 2 ^ 32 then attempt + 1 else attempt

/-- The message that `deliver_message` hands over, if any. -/
def messageOf (ownUser : String) : Event → Option MatrixMessage
  | .original roomId event encrypted =>
      let content : Option (String × String × Option String) :=
        match event.msgtype with
        | .text body formatted => some ("m.text", body, formatted)
        | .emote body formatted => some ("m.emote", body, formatted)
        | .notice body formatted => some ("m.notice", body, formatted)
        | .other => none
      match content with
      | none => none
      | some (msgtype, body, formattedBody) =>
          if shouldDeliver ownUser event.sender msgtype event.isReplacement
          then some
            { roomId, eventId := event.eventId, sender := event.sender
              body, formattedBody, msgtype
              timestampMs := event.originServerTs, encrypted }
          else none
  | _ => none

/-- What `from_http` reads of an error of the HTTP layer. -/
inductive HttpError where
  | cached (inner : HttpError)
  | reqwest (isTimeout isConnect isRequest : Bool) (text : String)
  | clientApi (statusCode : ℕ)
  | other (text : String)

/-- What is read of a `matrix_sdk::Error`: whether its kind is
`UnknownToken`, and its variant. -/
structure SdkError where
  unknownToken : Bool
  cause : HttpError ⊕ String

def fromStatus (status : ℕ) : MatrixError :=
  if status = 429 then .network "rate limited (HTTP 429)" true
  else if 500 ≤ status ∧ status ≤ 599 then
    .network s!"server error (HTTP {status})" true
  else if status = 403 then .roomUnavailable "forbidden (HTTP 403)"
  else if status = 404 then .roomUnavailable "not found (HTTP 404)"
  else .sdk s!"HTTP {status}"

def fromHttp : HttpError → MatrixError
  | .cached inner => fromHttp inner
  | .reqwest isTimeout isConnect isRequest text =>
      if isTimeout || isConnect || isRequest then
        .network "connection failed or timed out" true
      else .sdk text
  | .clientApi statusCode => fromStatus statusCode
  | .other text => .sdk text

def fromSdk (error : SdkError) : MatrixError :=
  match error.cause with
  | .inl http => fromHttp http
  | .inr text => .sdk text

inductive SyncFailure where
  | unknownToken
  | retryable
  | fatal (error : MatrixError)

def classifySyncError (error : SdkError) : SyncFailure :=
  if error.unknownToken then .unknownToken
  else if (fromSdk error).retryable then .retryable
  else .fatal (fromSdk error)

/-- What the loop reads of a `MatrixClient`. -/
structure MatrixClient where
  accountKey : String
  ownUser : String
  holderName : String
  autoJoinFrom : List String
  syncTimeoutMs : UInt64

def MatrixClient.leaseKey (client : MatrixClient) : LeaseKey :=
  (client.accountKey, SYNC_LEASE_KEY)

/-- `try_take_leased_lock` on the lease of synchronisation. -/
def MatrixClient.take (client : MatrixClient) (durationMs : UInt32) : Take where
  accountKey := client.accountKey
  leaseDurationMs := durationMs
  key := SYNC_LEASE_KEY
  holder := client.holderName

/-- The take of `try_lease` and of the callback. -/
def MatrixClient.fullTake (client : MatrixClient) : Take :=
  client.take (leaseMs client.syncTimeoutMs)

/-- The clients by their numbers, and the texts of the errors of the store. -/
structure Deployment where
  client : ℕ → MatrixClient
  shown : StoreError → String

inductive Interrupt where
  /-- The future `shutdown` is ready. -/
  | shutdown
  /-- The future of the call itself is dropped. -/
  | dropped
  deriving DecidableEq

/-- An answer, or an interruption while it is awaited; the request may have
been served nevertheless. -/
inductive Reply (α : Type) : Type where
  | answered (value : α)
  | cut (how : Interrupt) (unread : Option α)

/-- The requests, with the number of the client whose session they use. -/
inductive Request where
  /-- `sync_started.swap(true)` -/
  | swap (client : ℕ)
  /-- The drop of the `SyncSlot`. -/
  | clear (client : ℕ)
  | lease (request : Matrix.Request)
  /-- `sync_once` without a token, then `invited_rooms`. -/
  | syncOnce (client : ℕ)
  | inviteDetails (client : ℕ) (roomId : String)
  /-- The next response of `sync_with_callback`. -/
  | sync (client : ℕ)
  | join (client : ℕ) (roomId : String)
  | onMessage (client : ℕ) (message : MatrixMessage)
  | sleep (secs : ℕ)

@[reducible]
def Request.Answer : Request → Type
  | .swap _ => Bool
  | .clear _ => Unit
  | .lease request => request.Reply
  | .syncOnce _ => Except SdkError (List String)
  | .inviteDetails _ _ => Except SdkError String
  | .sync _ => Except SdkError (List Event)
  | .join _ _ => Except SdkError Unit
  | .onMessage _ _ => Unit
  | .sleep _ => Unit

abbrev Request.Told (request : Request) : Type :=
  Reply request.Answer

/-- Why a part of the loop does not go on. -/
inductive Exit where
  | interrupted (how : Interrupt)
  | failed (error : MatrixError)
  /-- The fuel was not enough. -/
  | unfinished

/-- How a call of `run_sync` ended. -/
inductive Outcome where
  | returned (result : Except MatrixError Unit)
  | dropped
  | unfinished

abbrev Flow (α : Type) : Type := Query Request Request.Told Exit α

/-- An interruption ends what awaits the answer. -/
def Reply.then {α β : Type} (reply : Reply α) (next : α → Flow β) : Flow β :=
  match reply with
  | .answered value => next value
  | .cut how _ => .done (.error (.interrupted how))

def ask (request : Request) : Flow request.Answer :=
  .call request fun reply => reply.then fun value => .done (.ok value)

/-- The statements of a call on the leases. -/
def statements {α : Type} : Script Matrix.Request Matrix.Request.Reply α →
    Flow α
  | .done value => .done (.ok value)
  | .call request rest =>
      .call (.lease request) fun reply =>
        reply.then fun value => statements (rest value)

section Loop

variable (deployment : Deployment) (number : ℕ)

/-- The loop of `accept_invite`, with the delays that are left. -/
def joinLoop (roomId : String) : List ℕ → Flow Unit
  | [] => ask (.join number roomId) >>= fun _ => pure ()
  | delay :: delays =>
      ask (.join number roomId) >>= fun joined =>
        match joined with
        | .ok () => pure ()
        | .error _ => ask (.sleep delay) >>= fun _ => joinLoop roomId delays

def acceptInvite (roomId inviter : String) : Flow Unit :=
  if inviteAllowed (deployment.client number).autoJoinFrom inviter then
    joinLoop number roomId JOIN_RETRY_DELAYS
  else pure ()

/-- `deliver`, if there is a message; a panic of `on_message` changes nothing
here. -/
def deliver : Option MatrixMessage → Flow Unit
  | some message => ask (.onMessage number message)
  | none => pure ()

/-- The handlers that `register_handlers` registers. -/
def handle (event : Event) : Flow Unit :=
  match event with
  | .member roomId sender stateKey membership =>
      if membership = .invite ∧ stateKey = (deployment.client number).ownUser
      then acceptInvite deployment number roomId sender
      else pure ()
  | event =>
      deliver number (messageOf (deployment.client number).ownUser event)

def tryLease : Flow Bool :=
  statements (tryTakeLeasedLock (deployment.client number).fullTake) >>=
    fun taken =>
      match taken with
      | .ok generation => pure generation.isSome
      | .error error => Query.fail (.failed
          (.sdk ("bail de synchronisation : " ++ deployment.shown error)))

def releaseLease : Flow Unit :=
  statements (tryTakeLeasedLock ((deployment.client number).take 1)) >>=
    fun _ => pure ()

def backOff (attempt : UInt32) : Flow UInt32 :=
  ask (.sleep (backoff attempt)) >>= fun _ => pure (nextAttempt attempt)

/-- The `while` of `drive`. -/
def awaitLease : ℕ → Flow Unit
  | 0 => Query.fail .unfinished
  | fuel + 1 =>
      tryLease deployment number >>= fun held =>
        if held then pure ()
        else ask (.sleep LEASE_RETRY) >>= fun _ => awaitLease fuel

/-- One of the rooms of `invited_rooms`. -/
def readInvite (roomId : String) : Flow Unit :=
  ask (.inviteDetails number roomId) >>= fun details =>
    match details with
    | .ok inviter => acceptInvite deployment number roomId inviter
    | .error _ => pure ()

def initialSync : Flow (Except SdkError Unit) :=
  ask (.syncOnce number) >>= fun synced =>
    match synced with
    | .ok rooms =>
        rooms.forM (readInvite deployment number) >>= fun _ => pure (.ok ())
    | .error error => pure (.error error)

/-- `sync_with_callback`, with the attempts that the callback counts.  It is code
of `matrix-sdk`, of which this is assumed: it asks for one response at a time,
runs the handlers on its events in order, each to its end, then the callback,
until that breaks or a request fails. -/
def syncWithCallback : ℕ → UInt32 → Flow (Except SdkError Unit × UInt32)
  | 0, _ => Query.fail .unfinished
  | fuel + 1, attempt =>
      ask (.sync number) >>= fun response =>
        match response with
        | .error error => pure (.error error, attempt)
        | .ok events =>
            events.forM (handle deployment number) >>= fun _ =>
            statements (tryTakeLeasedLock
                (deployment.client number).fullTake) >>= fun renewed =>
              match renewed with
              | .ok (some _) => syncWithCallback fuel 0
              | .ok none | .error _ => pure (.ok (), 0)

def syncWhileLeased : ℕ → UInt32 → Flow UInt32
  | 0, _ => Query.fail .unfinished
  | fuel + 1, attempt =>
      syncWithCallback deployment number (fuel + 1) attempt >>= fun ended =>
        match ended.1 with
        | .ok () => pure ended.2
        | .error error =>
            match classifySyncError error with
            | .unknownToken => Query.fail (.failed .notLoggedIn)
            | .fatal error => Query.fail (.failed error)
            | .retryable =>
                backOff ended.2 >>= fun attempt =>
                tryLease deployment number >>= fun held =>
                  if held then syncWhileLeased fuel attempt
                  else pure attempt

/-- The `loop` of `drive`. -/
def driveLoop : ℕ → UInt32 → Flow Empty
  | 0, _ => Query.fail .unfinished
  | fuel + 1, attempt =>
      awaitLease deployment number (fuel + 1) >>= fun _ =>
      initialSync deployment number >>= fun synced =>
        match synced with
        | .ok () =>
            syncWhileLeased deployment number (fuel + 1) 0 >>= fun attempt =>
            driveLoop fuel attempt
        | .error error =>
            match classifySyncError error with
            | .unknownToken => Query.fail (.failed .notLoggedIn)
            | .fatal error => Query.fail (.failed error)
            | .retryable =>
                backOff attempt >>= fun attempt => driveLoop fuel attempt

def drive (fuel : ℕ) : Flow Empty :=
  if (deployment.client number).ownUser = "" then
    Query.fail (.failed .notLoggedIn)
  else driveLoop deployment number fuel 0

/-- The drop of the slot, at whatever end. -/
def leave (outcome : Outcome) :
    Script Request Request.Told Outcome :=
  .call (.clear number) fun _ => .done outcome

/-- The release of the lease, which nothing but a drop interrupts. -/
def release (result : Except MatrixError Unit) :
    Script Request Request.Told Outcome :=
  Script.bind (releaseLease deployment number) fun released =>
    match released with
    | .ok () => leave number (.returned result)
    | .error _ => leave number .dropped

/-- What follows the `select!`. -/
def settle : Except Exit Empty → Script Request Request.Told Outcome
  | .ok never => never.elim
  | .error (.interrupted .dropped) => leave number .dropped
  | .error (.interrupted .shutdown) => release deployment number (.ok ())
  | .error (.failed error) => release deployment number (.error error)
  | .error .unfinished => .done .unfinished

def runSync (fuel : ℕ) : Script Request Request.Told Outcome :=
  .call (.swap number) fun reply =>
    match reply with
    | .answered false =>
        Script.bind (drive deployment number fuel)
          (settle deployment number)
    | .answered true =>
        .done (.returned (.error (.config "sync déjà démarré")))
    | .cut _ _ => .done .dropped

end Loop

/-- The leases of the database, and the flags `sync_started`.  All replicas read
the one clock of the leases: that their own clocks agree is assumed. -/
structure State where
  leases : Leases
  started : ℕ → Bool

/-- Whether a request is interrupted, and then whether it is served; how the
statements go, what the others are answered, and the time that passes. -/
structure Conditions where
  interrupt : Option (Interrupt × Bool)
  statement : Matrix.Conditions
  elapsed : ℕ
  syncOnce : Except SdkError (List String)
  inviteDetails : Except SdkError String
  sync : Except SdkError (List Event)
  join : Except SdkError Unit

/-- What a request is answered when it is served. -/
def State.serve (state : State) (conditions : Conditions) :
    (request : Request) → request.Answer × State
  | .swap client =>
      (state.started client,
        { state with started := Function.update state.started client true })
  | .clear client =>
      ((), { state with
        started := Function.update state.started client false })
  | .lease request =>
      let (answer, leases) := exec conditions.statement state.leases request
      (answer, { state with leases })
  | .syncOnce _ => (conditions.syncOnce, state)
  | .inviteDetails _ _ => (conditions.inviteDetails, state)
  | .sync _ => (conditions.sync, state)
  | .join _ _ => (conditions.join, state)
  | .onMessage _ _ => ((), state)
  | .sleep _ => ((), state)

/-- Time passes. -/
def State.wait (state : State) (elapsed : ℕ) : State :=
  { state with
    leases := { state.leases with clock := state.leases.clock + elapsed } }

/-- There is nothing to await. -/
def Request.immediate : Request → Bool
  | .swap _ | .clear _ | .lease .nowMs => true
  | _ => false

def perform : Script.Service Request Request.Told Conditions State :=
  fun conditions state request =>
    let (answer, after) := state.serve conditions request
    let later := after.wait conditions.elapsed
    if request.immediate then (.answered answer, later)
    else
      match conditions.interrupt with
      | none => (.answered answer, later)
      | some (how, true) => (.cut how (some answer), later)
      | some (how, false) =>
          (.cut how none, state.wait conditions.elapsed)

/-- A call of `run_sync`, with the fuel of its loops. -/
structure Call where
  number : ℕ
  fuel : ℕ

def replicas (deployment : Deployment) :
    System Call Request Request.Told Conditions State Outcome where
  program := fun call => runSync deployment call.number call.fuel
  exec := perform
  ready := fun _ _ => true
  spawns := fun _ => none

abbrev Replicas : Type :=
  Pool Call Request Request.Told State Outcome

abbrev Turn : Type := Occurrence Request Request.Told State

/-- Replicas of one account, each with its own name. -/
def pods : Deployment where
  client := fun number =>
    { accountKey := "default", ownUser := "@bot:x"
      holderName := String.ofList (List.replicate number 'p')
      autoJoinFrom := [], syncTimeoutMs := 30000 }
  shown := fun _ => ""

/-- A message of alice in the first response. -/
def salut : Conditions where
  interrupt := none
  statement := ⟨none, 0⟩
  elapsed := 10
  syncOnce := .ok []
  inviteDetails := .ok "@alice:x"
  sync := .ok [.original "!r:x" ⟨"$e", "@alice:x", .text "salut" none, false, 0⟩
    true]
  join := .ok ()

/-- The first of two replicas that start has the lease while the other one
tries. -/
def twoPods : Replicas :=
  (replicas pods).run { leases := ⟨0, ∅⟩, started := fun _ => false }
    ([.start ⟨1, 9⟩, .start ⟨2, 9⟩] ++ List.replicate 6 (.step 0 salut) ++
      List.replicate 6 (.step 1 salut))

end Sync

end MiryadCore.Matrix
