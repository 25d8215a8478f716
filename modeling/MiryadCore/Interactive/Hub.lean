import MiryadCore.Control.Pool
import MiryadCore.Interactive.Broadcast
import MiryadCore.Interactive.Event
import MiryadCore.Json.Text

/-!
# The hub of the sessions

Each session with a subscriber has a slot with the sender of its channel.  The
hub is two maps, each behind a lock of its own; a call is a script of the
sections in which it holds one of them, and of the requests that it makes to a
channel in between.
-/

namespace MiryadCore.Interactive

def HOST_PAYLOAD_MAX : ℕ := 65536

def HOST_INVALID : String := "host event invalid"

def CAPACITY_MIN : ℕ := 16

def CAPACITY_MAX : ℕ := 4096

/-- The maps of the hub and the slots made so far.  A slot is shared: `arcs`
counts its owners, the map and the calls that hold a copy. -/
structure Hub (channels : Broadcast SessionEvent) where
  capacity : ℕ
  /-- What the audit was given, when there is one. -/
  audit : Option (List (String × Event))
  subjects : String → Option String
  slots : String → Option ℕ
  made : ℕ
  senders : ℕ → channels.Channel
  arcs : ℕ → ℕ

/-- `Subscription`: a receiver of the channel of a slot. -/
structure Subscription where
  slot : ℕ
  receiver : ℕ
  deriving DecidableEq, Repr

inductive SubscriptionError where
  | lagged (missed : ℕ)
  | closed
  deriving DecidableEq, Repr

namespace Hub

/-- The sections of the calls on the hub. -/
inductive Section where
  | register (id : SessionId) (subject : String)
  | adopt (id : SessionId) (subject : String)
  | slot (id : SessionId)
  | subscribe (id : SessionId) (slot : ℕ)
  | release (slot : ℕ)
  | audit (event : Event)
  | now
  | diffuse (id : SessionId) (event : SessionEvent)
  | removeSlot (id : SessionId)
  | removeSubject (id : SessionId)
  | recv (subscription : Subscription)
  | unsubscribe (subscription : Subscription)

namespace Section

@[reducible]
def Reply : Section → Type
  | .register _ _ => Unit
  | .adopt _ _ => Unit
  | .slot _ => ℕ
  | .subscribe _ _ => ℕ
  | .release _ => Unit
  | .audit _ => Unit
  | .now => ℕ
  | .diffuse _ _ => Unit
  | .removeSlot _ => Unit
  | .removeSubject _ => Unit
  | .recv _ => Except RecvError SessionEvent
  | .unsubscribe _ => Unit

end Section

variable {channels : Broadcast SessionEvent}

/-- `EventHub::new`. -/
def new (channels : Broadcast SessionEvent) (audit : Bool) (capacity : ℕ) :
    Hub channels :=
  { capacity := max CAPACITY_MIN (min capacity CAPACITY_MAX)
    audit := if audit then some [] else none
    subjects := fun _ => none
    slots := fun _ => none
    made := 0
    senders := fun _ =>
      channels.channel (max CAPACITY_MIN (min capacity CAPACITY_MAX))
    arcs := fun _ => 0 }

/-- The slot of the session, made if need be, and a copy of it. -/
def slot (id : SessionId) (hub : Hub channels) : ℕ × Hub channels :=
  match hub.slots id with
  | some slot =>
      (slot, { hub with
        arcs := Function.update hub.arcs slot (hub.arcs slot + 1) })
  | none =>
      (hub.made, { hub with
        slots := Function.update hub.slots id (some hub.made)
        made := hub.made + 1
        senders := Function.update hub.senders hub.made
          (channels.channel hub.capacity)
        arcs := Function.update hub.arcs hub.made 2 })

/-- An owner of the slot goes; the sender goes with the last. -/
def release (slot : ℕ) (hub : Hub channels) : Hub channels :=
  { hub with
    senders :=
      if hub.arcs slot = 1 then
        Function.update hub.senders slot
          (channels.dropSender (hub.senders slot))
      else hub.senders
    arcs := Function.update hub.arcs slot (hub.arcs slot - 1) }

/-- `slots.remove`. -/
def removeSlot (id : SessionId) (hub : Hub channels) : Hub channels :=
  match hub.slots id with
  | some slot =>
      ({ hub with slots := Function.update hub.slots id none }).release slot
  | none => hub

/-- A channel without receiver is dropped with the event. -/
def diffuse (id : SessionId) (event : SessionEvent) (hub : Hub channels) :
    Hub channels :=
  match hub.slots id with
  | some slot =>
      if channels.receiverCount (hub.senders slot) = 0 then hub.removeSlot id
      else
        { hub with
          senders := Function.update hub.senders slot
            (channels.send event (hub.senders slot)) }
  | none => hub

/-- A script in error goes to the audit under the subject of its session. -/
def record (event : Event) (hub : Hub channels) : Hub channels :=
  match hub.audit, event.kind, hub.subjects event.session with
  | some audited, .script script, some subject =>
      if script.error.isSome then
        { hub with audit := some (audited ++ [(subject, event)]) }
      else hub
  | _, _, _ => hub

/-- The channel of the slot, changed. -/
def setSender (hub : Hub channels) (slot : ℕ) (sender : channels.Channel) :
    Hub channels :=
  { hub with senders := Function.update hub.senders slot sender }

/-- A receiver waits for its next event, and cannot be read once dropped. -/
def ready (hub : Hub channels) : Section → Bool
  | .recv subscription =>
      let sender := hub.senders subscription.slot
      ((channels.feed sender).unread subscription.receiver).isSome &&
        (channels.recv subscription.receiver sender).1.isSome
  | _ => true

/-- The clock gives the time `now`. -/
def exec (now : ℕ) (hub : Hub channels) :
    (request : Section) → request.Reply × Hub channels
  | .register id subject =>
      ((), { hub with
        subjects := Function.update hub.subjects id (some subject) })
  | .adopt id subject =>
      ((), { hub with
        subjects := Function.update hub.subjects id
          (some ((hub.subjects id).getD subject)) })
  | .slot id => hub.slot id
  | .subscribe _ slot =>
      let subscribed := channels.subscribe (hub.senders slot)
      (subscribed.1, hub.setSender slot subscribed.2)
  | .release slot => ((), hub.release slot)
  | .audit event => ((), hub.record event)
  | .now => (now, hub)
  | .diffuse id event => ((), hub.diffuse id event)
  | .removeSlot id => ((), hub.removeSlot id)
  | .removeSubject id =>
      ((), { hub with
        subjects := Function.update hub.subjects id none })
  | .recv subscription =>
      let received := channels.recv subscription.receiver
        (hub.senders subscription.slot)
      (received.1.getD (.error .closed),
        hub.setSender subscription.slot received.2)
  | .unsubscribe subscription =>
      ((), hub.setSender subscription.slot (channels.dropReceiver
        subscription.receiver (hub.senders subscription.slot)))

/-- The calls on the hub and on its subscriptions. -/
inductive Call where
  | register (id : SessionId) (subject : String)
  | subscribe (subject : String) (id : SessionId)
  | emit (event : Event)
  | publishHost (id : SessionId) (kind : String) (payload : Value)
  | close (id : SessionId)
  | recv (subscription : Subscription)
  | unsubscribe (subscription : Subscription)

/-- What the calls return. -/
inductive Answer where
  | unit
  | subscription (subscription : Subscription)
  | published (result : Except LymailleError Unit)
  | received (result : Except SubscriptionError SessionEvent)

/-- A call as a script of its sections. -/
abbrev Code := Script Section Section.Reply

abbrev ask (request : Section) : Code request.Reply := Script.ask request

def register (id : SessionId) (subject : String) : Code Unit :=
  ask (.register id subject)

def subscribe (subject : String) (id : SessionId) : Code Subscription := do
  ask (.adopt id subject)
  let slot ← ask (.slot id)
  let receiver ← ask (.subscribe id slot)
  ask (.release slot)
  return { slot, receiver }

def emit (event : Event) : Code Unit := do
  ask (.audit event)
  ask (.diffuse event.session (SessionEvent.of event))

def publishHost (id : SessionId) (kind : String) (payload : Value) :
    Code (Except LymailleError Unit) := do
  if kind.isEmpty ∨ HOST_PAYLOAD_MAX < Value.textBytes payload.text then
    return .error (.invalidDefinition HOST_INVALID)
  let now ← ask .now
  ask (.diffuse id { session := id, at_ := now, kind := .host kind payload })
  return .ok ()

def close (id : SessionId) : Code Unit := do
  ask (.removeSlot id)
  ask (.removeSubject id)

def subscriptionError : RecvError → SubscriptionError
  | .lagged missed => .lagged missed
  | .closed => .closed

/-- `Subscription::recv`. -/
def recv (subscription : Subscription) :
    Code (Except SubscriptionError SessionEvent) := do
  let received ← ask (.recv subscription)
  return received.mapError subscriptionError

def program : Call → Code Answer
  | .register id subject => do
      register id subject
      return .unit
  | .subscribe subject id => do
      let subscription ← subscribe subject id
      return .subscription subscription
  | .emit event => do
      emit event
      return .unit
  | .publishHost id kind payload => do
      let result ← publishHost id kind payload
      return .published result
  | .close id => do
      close id
      return .unit
  | .recv subscription => do
      let result ← recv subscription
      return .received result
  | .unsubscribe subscription => do
      ask (.unsubscribe subscription)
      return .unit

/-- Calls on the hub that run beside each other. -/
def system (channels : Broadcast SessionEvent) :
    System Call Section Section.Reply ℕ (Hub channels) Answer where
  program := program
  exec := exec
  ready := ready
  spawns _ := none

end Hub

end MiryadCore.Interactive
