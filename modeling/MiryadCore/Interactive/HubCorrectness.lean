import MiryadCore.Interactive.Hub

/-!
# What a subscription receives

The history of a subscription is what was sent to its session and what it
reported since it was made.  A subscription is attached to the channel of its
session exactly as long as every subscribe call found its slot still in the
map when it made its receiver.
-/

namespace MiryadCore.Interactive.Hub

variable {channels : Broadcast SessionEvent}

/-- A section of a call on the hub, as it took place. -/
abbrev Passage (channels : Broadcast SessionEvent) :=
  Occurrence Section Section.Reply (Hub channels)

abbrev Trace (channels : Broadcast SessionEvent) := List (Passage channels)

/-- The slot is given to a subscriber of the session. -/
def Section.Gives (slot : ℕ) (id : SessionId) :
    (request : Section) → request.Reply → Prop
  | .slot other, given => given = slot ∧ other = id
  | _, _ => False

/-- The subscription to the session is made. -/
def Section.Subscribes (subscription : Subscription) (id : SessionId) :
    (request : Section) → request.Reply → Prop
  | .subscribe other given, receiver =>
      { slot := given, receiver : Subscription } = subscription ∧ other = id
  | _, _ => False

/-- The subscription receives the event. -/
def Section.Receives (subscription : Subscription) (event : SessionEvent) :
    (request : Section) → request.Reply → Prop
  | .recv other, received => other = subscription ∧ received = .ok event
  | _, _ => False

def SlotOf (trace : Trace channels) (slot : ℕ) (id : SessionId) : Prop :=
  ∃ passage ∈ trace, passage.request.Gives slot id passage.answer

def Subscribed (trace : Trace channels) (subscription : Subscription)
    (id : SessionId) : Prop :=
  ∃ passage ∈ trace, passage.request.Subscribes subscription id passage.answer

def Received (trace : Trace channels) (subscription : Subscription)
    (event : SessionEvent) : Prop :=
  ∃ passage ∈ trace, passage.request.Receives subscription event passage.answer

/-- What was sent to a session and what a subscription to it reported. -/
structure History where
  sent : List SessionEvent
  reports : List (Except RecvError SessionEvent)
  deriving DecidableEq

/-- What the section adds to the history of a subscription to the session. -/
def Section.extend (id : SessionId) (subscription : Subscription) :
    (request : Section) → request.Reply → Option History → Option History
  | .subscribe other given, receiver, history =>
      if other = id ∧
          { slot := given, receiver : Subscription } = subscription then
        some { sent := [], reports := [] }
      else history
  | .diffuse other event, _, history =>
      if other = id then
        history.map fun history =>
          { history with sent := history.sent ++ [event] }
      else history
  | .recv other, received, history =>
      if other = subscription then
        history.map fun history =>
          { history with reports := history.reports ++ [received] }
      else history
  | .removeSlot other, _, history => if other = id then none else history
  | .unsubscribe other, _, history =>
      if other = subscription then none else history
  | _, _, history => history

/-- The history of the subscription since it was made, until it is dropped or
its session closed. -/
def history (id : SessionId) (subscription : Subscription) :
    Trace channels → Option History
  | [] => none
  | passage :: earlier =>
      passage.request.extend id subscription passage.answer
        (history id subscription earlier)

/-- The channel of the slot, as a feed. -/
def feed (hub : Hub channels) (slot : ℕ) : Feed SessionEvent :=
  channels.feed (hub.senders slot)

/-- Until its session is closed, each subscription has the channel that the
session uses: it was not told that the channel is closed, and what was sent
and not reported, received or missed, is left for it to read. -/
def Attached (hub : Hub channels) (trace : Trace channels) : Prop :=
  ∀ id subscription past, history id subscription trace = some past →
    hub.slots id = some subscription.slot ∧
    .error .closed ∉ past.reports ∧
    ∃ left, (hub.feed subscription.slot).unread subscription.receiver =
        some left ∧
      Accounted past.sent past.reports left

/-- No subscription receives an event of another session. -/
def Separate (trace : Trace channels) : Prop :=
  ∀ subscription id event, Subscribed trace subscription id →
    Received trace subscription event → event.session = id

/-- A receiver is made on a slot that the map still has. -/
def Timely (_earlier : Trace channels) (passage : Passage channels) : Prop :=
  match passage.request with
  | .subscribe id slot => passage.before.slots id = some slot
  | _ => True

instance decidableTimely (earlier : Trace channels) :
    ∀ passage : Passage channels, Decidable (Timely earlier passage)
  | ⟨_, before, .subscribe id slot, _⟩ =>
      inferInstanceAs (Decidable (before.slots id = some slot))
  | ⟨_, _, .register _ _, _⟩ | ⟨_, _, .adopt _ _, _⟩ | ⟨_, _, .slot _, _⟩
  | ⟨_, _, .release _, _⟩ | ⟨_, _, .audit _, _⟩ | ⟨_, _, .now, _⟩
  | ⟨_, _, .diffuse _ _, _⟩ | ⟨_, _, .removeSlot _, _⟩
  | ⟨_, _, .removeSubject _, _⟩ | ⟨_, _, .recv _, _⟩
  | ⟨_, _, .unsubscribe _, _⟩ => isTrue trivial

inductive Stage where
  /-- The sections of the calls other than `subscribe`. -/
  | free
  | subscribing (id : SessionId)
  | found (id : SessionId) (slot : ℕ)
  | made (slot : ℕ)
  | ended

/-- Any section that neither gives out a slot nor uses one given out. -/
def Stage.Free : Section → Prop
  | .slot _ => False
  | .subscribe _ _ => False
  | .release _ => False
  | .diffuse id event => event.session = id
  | _ => True

def protocol : Protocol Call Section Section.Reply Answer Stage where
  start
    | .subscribe _ id => .subscribing id
    | _ => .free
  allows
    | .free, request => Stage.Free request
    | .subscribing id, .adopt other _ => other = id
    | .subscribing id, .slot other => other = id
    | .found id slot, .subscribe other given => other = id ∧ given = slot
    | .made slot, .release given => given = slot
    | _, _ => False
  next
    | .subscribing id, .slot _, slot => .found id slot
    | .found _ slot, .subscribe _ _, _ => .made slot
    | .made _, .release _, _ => .ended
    | stage, _, _ => stage
  ends _ _ _ := True

theorem program_obeys (call : Call) :
    (program call).Obeys protocol (protocol.start call)
      (protocol.ends call) := by
  cases call with
  | register id subject => exact ⟨trivial, fun _ => trivial⟩
  | subscribe subject id =>
      refine ⟨rfl, fun _ => ⟨rfl, fun slot => ?_⟩⟩
      exact ⟨⟨rfl, rfl⟩, fun receiver => ⟨rfl, fun _ => trivial⟩⟩
  | emit event => exact ⟨trivial, fun _ => ⟨rfl, fun _ => trivial⟩⟩
  | publishHost id kind payload =>
      simp only [program, publishHost]
      split
      · trivial
      · exact ⟨trivial, fun now => ⟨rfl, fun _ => trivial⟩⟩
  | close id => exact ⟨trivial, fun _ => ⟨trivial, fun _ => trivial⟩⟩
  | recv subscription => exact ⟨trivial, fun _ => trivial⟩
  | unsubscribe subscription => exact ⟨trivial, fun _ => trivial⟩

@[simp]
theorem feed_setSender (hub : Hub channels) (slot other : ℕ)
    (sender : channels.Channel) :
    (hub.setSender slot sender).feed other =
      if other = slot then channels.feed sender else hub.feed other := by
  unfold feed setSender
  dsimp only
  by_cases same : other = slot
  · subst same
    rw [if_pos rfl, Function.update_self]
  · rw [if_neg same, Function.update_of_ne same]

theorem unread_release (hub : Hub channels) (slot other : ℕ) :
    ((hub.release slot).feed other).unread = (hub.feed other).unread := by
  unfold feed release
  dsimp only
  split
  · by_cases same : other = slot
    · subst same
      rw [Function.update_self, channels.feed_dropSender]
      rfl
    · rw [Function.update_of_ne same]
  · rfl

theorem sending_release (hub : Hub channels) (slot other : ℕ)
    (sending : ∀ slot, 0 < hub.arcs slot → (hub.feed slot).sending = true)
    (owned : 0 < (hub.release slot).arcs other) :
    ((hub.release slot).feed other).sending = true := by
  unfold feed release at *
  dsimp only at *
  by_cases same : other = slot
  · subst same
    rw [Function.update_self] at owned
    rw [if_neg (by omega)]
    exact sending other (by omega)
  · rw [Function.update_of_ne same] at owned
    split
    · rw [Function.update_of_ne same]
      exact sending other owned
    · exact sending other owned

theorem removeSlot_of_some {hub : Hub channels} {id : SessionId} {slot : ℕ}
    (found : hub.slots id = some slot) :
    hub.removeSlot id =
      ({ hub with slots := Function.update hub.slots id none }).release slot := by
  unfold removeSlot
  rw [found]

theorem removeSlot_of_none {hub : Hub channels} {id : SessionId}
    (absent : hub.slots id = none) : hub.removeSlot id = hub := by
  unfold removeSlot
  rw [absent]

theorem unread_removeSlot (hub : Hub channels) (id : SessionId) (other : ℕ) :
    ((hub.removeSlot id).feed other).unread = (hub.feed other).unread := by
  cases found : hub.slots id with
  | none => rw [removeSlot_of_none found]
  | some slot =>
      rw [removeSlot_of_some found]
      exact unread_release _ slot other

theorem slots_removeSlot (hub : Hub channels) (id : SessionId) :
    (hub.removeSlot id).slots = Function.update hub.slots id none := by
  cases found : hub.slots id with
  | none => rw [removeSlot_of_none found, ← found, Function.update_eq_self]
  | some slot =>
      rw [removeSlot_of_some found]
      rfl

theorem diffuse_cases (hub : Hub channels) (id : SessionId)
    (event : SessionEvent) :
    (hub.slots id = none ∧ hub.diffuse id event = hub) ∨
    (∃ slot, hub.slots id = some slot ∧
      (∀ receiver, (hub.feed slot).unread receiver = none) ∧
      hub.diffuse id event = hub.removeSlot id) ∨
    ∃ slot, hub.slots id = some slot ∧
      hub.diffuse id event =
        hub.setSender slot (channels.send event (hub.senders slot)) ∧
      channels.feed (channels.send event (hub.senders slot)) =
        (hub.feed slot).send event := by
  unfold diffuse
  cases found : hub.slots id with
  | none => exact .inl ⟨rfl, rfl⟩
  | some slot =>
      right
      by_cases none : channels.receiverCount (hub.senders slot) = 0
      · exact .inl ⟨slot, rfl, (channels.receiverCount_eq_zero _).mp none,
          if_pos none⟩
      · exact .inr ⟨slot, rfl, if_neg none, channels.feed_send _ _ none⟩

/-- The section gives the task a copy of the slot, or takes it back. -/
def Section.hold (slot task : ℕ) :
    (request : Section) → request.Reply → List ℕ → List ℕ
  | .slot _, given, tasks => if given = slot then task :: tasks else tasks
  | .release given, _, tasks =>
      if given = slot then tasks.erase task else tasks
  | _, _, tasks => tasks

/-- The tasks that hold a copy of the slot. -/
def holders (slot : ℕ) : Trace channels → List ℕ
  | [] => []
  | passage :: earlier =>
      passage.request.hold slot passage.task passage.answer
        (holders slot earlier)

/-- Each slot is of one session, whose events are all that its receivers have
to read; the map is one of the owners of the slots that it has. -/
structure Shape (hub : Hub channels) (trace : Trace channels) : Prop where
  slotOf : ∀ {id slot}, hub.slots id = some slot → SlotOf trace slot id
  made : ∀ {slot id}, SlotOf trace slot id → slot < hub.made
  unique : ∀ {slot id other}, SlotOf trace slot id → SlotOf trace slot other →
    id = other
  subscribed : ∀ {subscription id}, Subscribed trace subscription id →
    SlotOf trace subscription.slot id
  received : ∀ {subscription event}, Received trace subscription event →
    SlotOf trace subscription.slot event.session
  sessions : ∀ {slot receiver left event},
    (hub.feed slot).unread receiver = some left → event ∈ left →
    SlotOf trace slot event.session
  sending : ∀ slot, 0 < hub.arcs slot → (hub.feed slot).sending = true
  arcs : ∀ {id slot}, hub.slots id = some slot →
    hub.arcs slot = (holders slot trace).length + 1

/-- The section is none of those that a subscription goes through. -/
def Section.Quiet : Section → Prop
  | .slot _ => False
  | .subscribe _ _ => False
  | .release _ => False
  | .recv _ => False
  | _ => True

section Trace

variable {trace : Trace channels} {passage : Passage channels} {slot : ℕ}
  {id : SessionId} {subscription : Subscription} {event : SessionEvent}

theorem slotOf_cons : SlotOf (passage :: trace) slot id ↔
    passage.request.Gives slot id passage.answer ∨ SlotOf trace slot id :=
  List.exists_mem_cons_iff _ _ _

theorem subscribed_cons : Subscribed (passage :: trace) subscription id ↔
    passage.request.Subscribes subscription id passage.answer ∨
      Subscribed trace subscription id :=
  List.exists_mem_cons_iff _ _ _

theorem received_cons : Received (passage :: trace) subscription event ↔
    passage.request.Receives subscription event passage.answer ∨
      Received trace subscription event :=
  List.exists_mem_cons_iff _ _ _

theorem SlotOf.cons (known : SlotOf trace slot id) :
    SlotOf (passage :: trace) slot id :=
  slotOf_cons.mpr (.inr known)

theorem slotOf_cons_of_ne (other : ∀ id, passage.request ≠ .slot id) :
    SlotOf (passage :: trace) slot id ↔ SlotOf trace slot id := by
  rw [slotOf_cons]
  obtain ⟨task, before, request, answer⟩ := passage
  cases request with
  | slot other' => exact absurd rfl (other other')
  | _ => simp [Section.Gives]

theorem subscribed_cons_of_ne
    (other : ∀ id slot, passage.request ≠ .subscribe id slot) :
    Subscribed (passage :: trace) subscription id ↔
      Subscribed trace subscription id := by
  rw [subscribed_cons]
  obtain ⟨task, before, request, answer⟩ := passage
  cases request with
  | subscribe other' given => exact absurd rfl (other other' given)
  | _ => simp [Section.Subscribes]

theorem received_cons_of_ne
    (other : ∀ subscription, passage.request ≠ .recv subscription) :
    Received (passage :: trace) subscription event ↔
      Received trace subscription event := by
  rw [received_cons]
  obtain ⟨task, before, request, answer⟩ := passage
  cases request with
  | recv other' => exact absurd rfl (other other')
  | _ => simp [Section.Receives]

theorem holders_cons_of_ne (notSlot : ∀ id, passage.request ≠ .slot id)
    (notRelease : ∀ slot, passage.request ≠ .release slot) :
    holders slot (passage :: trace) = holders slot trace := by
  obtain ⟨task, before, request, answer⟩ := passage
  cases request with
  | slot other => exact absurd rfl (notSlot other)
  | release given => exact absurd rfl (notRelease given)
  | _ => rfl

theorem slotOf_of_mem_holders {task : ℕ} (holds : task ∈ holders slot trace) :
    ∃ id, SlotOf trace slot id := by
  induction trace with
  | nil => cases holds
  | cons passage earlier induction =>
      obtain ⟨other, before, request, answer⟩ := passage
      have later : (∃ id, SlotOf earlier slot id) →
          ∃ id, SlotOf (⟨other, before, request, answer⟩ :: earlier) slot id :=
        fun known => ⟨known.choose, known.choose_spec.cons⟩
      cases request with
      | slot id =>
          by_cases same : answer = slot
          · exact ⟨id, slotOf_cons.mpr (.inl ⟨same, rfl⟩)⟩
          · simp only [holders, Section.hold, if_neg same] at holds
            exact later (induction holds)
      | release given =>
          simp only [holders, Section.hold] at holds
          split at holds
          · exact later (induction (List.mem_of_mem_erase holds))
          · exact later (induction holds)
      | _ => exact later (induction holds)

theorem mem_holders_slot {task : ℕ} {before : Hub channels} :
    task ∈ holders slot (⟨task, before, .slot id, slot⟩ :: trace) := by
  simp only [holders, Section.hold, if_true]
  exact List.mem_cons_self

theorem mem_holders_cons {task : ℕ} (other : passage.task ≠ task)
    (holds : task ∈ holders slot trace) :
    task ∈ holders slot (passage :: trace) := by
  obtain ⟨turn, before, request, answer⟩ := passage
  cases request with
  | slot id =>
      simp only [holders, Section.hold]
      split
      · exact List.mem_cons_of_mem _ holds
      · exact holds
  | release given =>
      simp only [holders, Section.hold]
      split
      · exact (List.mem_erase_of_ne (Ne.symm other)).mpr holds
      · exact holds
  | _ => exact holds

end Trace

namespace Shape

variable {hub after : Hub channels} {trace : Trace channels}
  {passage : Passage channels}

theorem new (audit : Bool) (capacity : ℕ) :
    Shape (Hub.new channels audit capacity) [] where
  slotOf found := by cases found
  made known := by obtain ⟨passage, member, _⟩ := known; cases member
  unique known := by obtain ⟨passage, member, _⟩ := known; cases member
  subscribed known := by obtain ⟨passage, member, _⟩ := known; cases member
  received known := by obtain ⟨passage, member, _⟩ := known; cases member
  sessions := by
    intro slot receiver left event found
    simp only [feed, Hub.new, channels.feed_channel, Feed.new] at found
    cases found
  sending slot owned := by simp [Hub.new] at owned
  arcs found := by cases found

/-- A quiet section that leaves the slots of the map as they are, or takes one
out, and brings no event of another session. -/
theorem quiet (shape : Shape hub trace) (quiet : passage.request.Quiet)
    (slots : ∀ id slot, after.slots id = some slot →
      hub.slots id = some slot ∧ after.arcs slot = hub.arcs slot)
    (made : after.made = hub.made)
    (sessions : ∀ slot receiver left, (after.feed slot).unread receiver =
      some left → ∀ event ∈ left, SlotOf trace slot event.session)
    (sending : ∀ slot, 0 < after.arcs slot →
      (after.feed slot).sending = true) :
    Shape after (passage :: trace) := by
  have notSlot : ∀ id, passage.request ≠ .slot id := by
    intro id same
    rw [same] at quiet
    exact quiet
  have notRelease : ∀ slot, passage.request ≠ .release slot := by
    intro slot same
    rw [same] at quiet
    exact quiet
  have notSubscribe : ∀ id slot, passage.request ≠ .subscribe id slot := by
    intro id slot same
    rw [same] at quiet
    exact quiet
  have notRecv : ∀ subscription, passage.request ≠ .recv subscription := by
    intro subscription same
    rw [same] at quiet
    exact quiet
  refine ⟨?_, ?_, ?_, ?_, ?_, ?_, sending, ?_⟩
  · intro id slot found
    exact (shape.slotOf (slots id slot found).1).cons
  · intro slot id known
    rw [made]
    exact shape.made ((slotOf_cons_of_ne notSlot).mp known)
  · intro slot id other known also
    exact shape.unique ((slotOf_cons_of_ne notSlot).mp known)
      ((slotOf_cons_of_ne notSlot).mp also)
  · intro subscription id known
    exact (shape.subscribed ((subscribed_cons_of_ne notSubscribe).mp known)).cons
  · intro subscription event known
    exact (shape.received ((received_cons_of_ne notRecv).mp known)).cons
  · intro slot receiver left event found member
    exact (sessions slot receiver left found event member).cons
  · intro id slot found
    rw [holders_cons_of_ne notSlot notRelease, (slots id slot found).2]
    exact shape.arcs (slots id slot found).1

theorem silent (shape : Shape hub trace) (quiet : passage.request.Quiet)
    (slots : after.slots = hub.slots) (made : after.made = hub.made)
    (senders : after.senders = hub.senders) (arcs : after.arcs = hub.arcs) :
    Shape after (passage :: trace) := by
  apply shape.quiet quiet
  · intro id slot found
    rw [slots] at found
    rw [arcs]
    exact ⟨found, rfl⟩
  · exact made
  · intro slot receiver left found event member
    simp only [feed, senders] at found
    exact shape.sessions found member
  · intro slot owned
    rw [arcs] at owned
    simp only [feed, senders]
    exact shape.sending slot owned

theorem removeSlot (shape : Shape hub trace) (quiet : passage.request.Quiet)
    (id : SessionId) : Shape (hub.removeSlot id) (passage :: trace) := by
  cases found : hub.slots id with
  | none =>
      rw [removeSlot_of_none found]
      exact shape.silent quiet rfl rfl rfl rfl
  | some slot =>
      apply shape.quiet quiet
      · intro other given still
        rw [slots_removeSlot] at still
        have different : other ≠ id := by
          intro same
          rw [same, Function.update_self] at still
          cases still
        rw [Function.update_of_ne different] at still
        have elsewhere : given ≠ slot := by
          intro same
          rw [same] at still
          exact different (shape.unique (shape.slotOf still) (shape.slotOf found))
        refine ⟨still, ?_⟩
        rw [removeSlot_of_some found]
        exact Function.update_of_ne elsewhere _ _
      · rw [removeSlot_of_some found]
        rfl
      · intro given receiver left unread event member
        rw [unread_removeSlot] at unread
        exact shape.sessions unread member
      · intro given owned
        rw [removeSlot_of_some found] at owned ⊢
        exact sending_release _ slot given shape.sending owned

/-- The channel of a slot changes, but not whether it is open. -/
theorem setSender (shape : Shape hub trace) (quiet : passage.request.Quiet)
    {slot : ℕ} {sender : channels.Channel}
    (sessions : ∀ receiver left, (channels.feed sender).unread receiver =
      some left → ∀ event ∈ left, SlotOf trace slot event.session)
    (sending : (channels.feed sender).sending = (hub.feed slot).sending) :
    Shape (hub.setSender slot sender) (passage :: trace) := by
  apply shape.quiet quiet
  · intro id given found
    exact ⟨found, rfl⟩
  · rfl
  · intro given receiver left unread event member
    rw [feed_setSender] at unread
    split at unread
    next same =>
      rw [same]
      exact sessions receiver left unread event member
    next => exact shape.sessions unread member
  · intro given owned
    rw [feed_setSender]
    split
    next same =>
      rw [sending, ← same]
      exact shape.sending given owned
    next => exact shape.sending given owned

end Shape

/-- What a task knows at each stage of its call. -/
def own (task : ℕ) : Stage → Hub channels → Trace channels → Prop
  | .found id slot, _, trace => SlotOf trace slot id ∧ task ∈ holders slot trace
  | .made slot, _, trace => task ∈ holders slot trace
  | _, _, _ => True

theorem allows_subscribe {stage : Stage} {id : SessionId} {slot : ℕ}
    (allowed : protocol.allows stage (.subscribe id slot)) :
    stage = .found id slot := by
  cases stage with
  | found other given =>
      obtain ⟨sameId, sameSlot⟩ := allowed
      rw [sameId, sameSlot]
  | _ => exact allowed.elim

theorem allows_release {stage : Stage} {slot : ℕ}
    (allowed : protocol.allows stage (.release slot)) :
    stage = .made slot := by
  cases stage with
  | made given => exact congrArg Stage.made allowed.symm
  | _ => exact allowed.elim

theorem allows_diffuse {stage : Stage} {id : SessionId} {event : SessionEvent}
    (allowed : protocol.allows stage (.diffuse id event)) :
    event.session = id := by
  cases stage with
  | free => exact allowed
  | _ => exact allowed.elim

theorem record_same (event : Event) (hub : Hub channels) :
    (hub.record event).slots = hub.slots ∧
      (hub.record event).made = hub.made ∧
      (hub.record event).senders = hub.senders ∧
      (hub.record event).arcs = hub.arcs := by
  unfold record
  split
  · split
    · exact ⟨rfl, rfl, rfl, rfl⟩
    · exact ⟨rfl, rfl, rfl, rfl⟩
  · exact ⟨rfl, rfl, rfl, rfl⟩

theorem exec_recv {hub : Hub channels} {subscription : Subscription}
    (ready : hub.ready (.recv subscription) = true) (now : ℕ) :
    ∃ sender, (exec now hub (.recv subscription)).2 =
        hub.setSender subscription.slot sender ∧
      (hub.feed subscription.slot).Receives subscription.receiver
        (some (exec now hub (.recv subscription)).1) (channels.feed sender) := by
  simp only [Hub.ready, Bool.and_eq_true, Option.isSome_iff_exists] at ready
  obtain ⟨⟨left, unread⟩, received, given⟩ := ready
  have live : (channels.feed (hub.senders subscription.slot)).unread
      subscription.receiver ≠ none := by
    rw [unread]
    exact Option.some_ne_none left
  have receives := channels.recv_receives subscription.receiver
    (hub.senders subscription.slot) live
  refine ⟨_, rfl, ?_⟩
  simp only [exec, given, Option.getD_some]
  rw [given] at receives
  exact receives

namespace Shape

variable {hub : Hub channels} {trace : Trace channels} {task : ℕ}

theorem holders_eq_nil (shape : Shape hub trace) :
    holders hub.made trace = [] := by
  apply List.eq_nil_iff_forall_not_mem.mpr
  intro task holds
  obtain ⟨id, known⟩ := slotOf_of_mem_holders holds
  exact Nat.lt_irrefl _ (shape.made known)

theorem slot_some (shape : Shape hub trace) {id : SessionId} {slot : ℕ}
    (found : hub.slots id = some slot) :
    Shape { hub with arcs := Function.update hub.arcs slot (hub.arcs slot + 1) }
      (⟨task, hub, .slot id, slot⟩ :: trace) := by
  have given : ∀ {other id'},
      SlotOf (⟨task, hub, .slot id, slot⟩ :: trace) other id' ↔
        SlotOf trace other id' := by
    intro other id'
    rw [slotOf_cons]
    constructor
    · intro known
      rcases known with now | before
      · obtain ⟨sameSlot, sameId⟩ := now
        rw [← sameSlot, ← sameId]
        exact shape.slotOf found
      · exact before
    · exact .inr
  refine ⟨?_, ?_, ?_, ?_, ?_, ?_, ?_, ?_⟩
  · intro id' other still
    exact given.mpr (shape.slotOf still)
  · intro other id' known
    exact shape.made (given.mp known)
  · intro other id' id'' known also
    exact shape.unique (given.mp known) (given.mp also)
  · intro subscription id' known
    rw [subscribed_cons_of_ne (fun _ _ same => by cases same)] at known
    exact given.mpr (shape.subscribed known)
  · intro subscription event known
    rw [received_cons_of_ne (fun _ same => by cases same)] at known
    exact given.mpr (shape.received known)
  · intro other receiver left event unread member
    exact given.mpr (shape.sessions unread member)
  · intro other owned
    apply shape.sending other
    dsimp only at owned
    by_cases same : other = slot
    · subst same
      rw [shape.arcs found]
      omega
    · rw [Function.update_of_ne same] at owned
      exact owned
  · intro id' other still
    dsimp only at still ⊢
    simp only [holders, Section.hold]
    by_cases same : other = slot
    · subst same
      rw [Function.update_self, if_pos rfl, List.length_cons, shape.arcs still]
    · rw [Function.update_of_ne same, if_neg (Ne.symm same), shape.arcs still]

theorem slot_none (shape : Shape hub trace) {id : SessionId}
    (absent : hub.slots id = none) :
    Shape
      { hub with
        slots := Function.update hub.slots id (some hub.made)
        made := hub.made + 1
        senders := Function.update hub.senders hub.made
          (channels.channel hub.capacity)
        arcs := Function.update hub.arcs hub.made 2 }
      (⟨task, hub, .slot id, hub.made⟩ :: trace) := by
  have given : ∀ {other id'},
      SlotOf (⟨task, hub, .slot id, hub.made⟩ :: trace) other id' ↔
        (hub.made = other ∧ id = id') ∨ SlotOf trace other id' := by
    intro other id'
    exact slotOf_cons
  have old : ∀ {other id'}, SlotOf trace other id' → other ≠ hub.made := by
    intro other id' known same
    have below := shape.made known
    omega
  refine ⟨?_, ?_, ?_, ?_, ?_, ?_, ?_, ?_⟩
  · intro id' other still
    dsimp only at still
    by_cases same : id' = id
    · subst same
      rw [Function.update_self] at still
      cases still
      exact given.mpr (.inl ⟨rfl, rfl⟩)
    · rw [Function.update_of_ne same] at still
      exact given.mpr (.inr (shape.slotOf still))
  · intro other id' known
    rcases given.mp known with now | before
    · rw [← now.1]
      exact Nat.lt_succ_self _
    · exact Nat.lt_succ_of_lt (shape.made before)
  · intro other id' id'' known also
    rcases given.mp known with now | before
    · rcases given.mp also with alsoNow | alsoBefore
      · exact now.2.symm.trans alsoNow.2
      · exact absurd now.1.symm (old alsoBefore)
    · rcases given.mp also with alsoNow | alsoBefore
      · exact absurd alsoNow.1.symm (old before)
      · exact shape.unique before alsoBefore
  · intro subscription id' known
    rw [subscribed_cons_of_ne (fun _ _ same => by cases same)] at known
    exact given.mpr (.inr (shape.subscribed known))
  · intro subscription event known
    rw [received_cons_of_ne (fun _ same => by cases same)] at known
    exact given.mpr (.inr (shape.received known))
  · intro other receiver left event unread member
    simp only [feed] at unread
    by_cases same : other = hub.made
    · rw [same, Function.update_self, channels.feed_channel] at unread
      cases unread
    · rw [Function.update_of_ne same] at unread
      exact given.mpr (.inr (shape.sessions unread member))
  · intro other owned
    simp only [feed] at owned ⊢
    by_cases same : other = hub.made
    · rw [same, Function.update_self, channels.feed_channel]
      rfl
    · rw [Function.update_of_ne same] at owned ⊢
      exact shape.sending other owned
  · intro id' other still
    dsimp only at still ⊢
    simp only [holders, Section.hold]
    by_cases same : id' = id
    · subst same
      rw [Function.update_self] at still
      cases still
      rw [Function.update_self, if_pos rfl, shape.holders_eq_nil]
      rfl
    · rw [Function.update_of_ne same] at still
      have elsewhere := old (shape.slotOf still)
      rw [Function.update_of_ne elsewhere, if_neg (Ne.symm elsewhere)]
      exact shape.arcs still

theorem slot (shape : Shape hub trace) (id : SessionId) :
    Shape (hub.slot id).2 (⟨task, hub, .slot id, (hub.slot id).1⟩ :: trace) := by
  unfold Hub.slot
  cases found : hub.slots id with
  | some slot => exact shape.slot_some found
  | none => exact shape.slot_none found

/-- The slots and their owners are as before; the trace may tell more. -/
theorem subscribe (shape : Shape hub trace) {id : SessionId} {slot : ℕ}
    (known : SlotOf trace slot id) :
    Shape (hub.setSender slot (channels.subscribe (hub.senders slot)).2)
      (⟨task, hub, .subscribe id slot,
        (channels.subscribe (hub.senders slot)).1⟩ :: trace) := by
  have given : ∀ {other id'},
      SlotOf (⟨task, hub, .subscribe id slot,
        (channels.subscribe (hub.senders slot)).1⟩ :: trace) other id' ↔
        SlotOf trace other id' :=
    slotOf_cons_of_ne (fun _ same => by cases same)
  refine ⟨?_, ?_, ?_, ?_, ?_, ?_, ?_, ?_⟩
  · intro id' other still
    exact given.mpr (shape.slotOf still)
  · intro other id' also
    exact shape.made (given.mp also)
  · intro other id' id'' also another
    exact shape.unique (given.mp also) (given.mp another)
  · intro subscription id' also
    apply given.mpr
    rcases subscribed_cons.mp also with now | before
    · obtain ⟨sameSubscription, sameId⟩ := now
      rw [← sameSubscription, ← sameId]
      exact known
    · exact shape.subscribed before
  · intro subscription event also
    rw [received_cons_of_ne (fun _ same => by cases same)] at also
    exact given.mpr (shape.received also)
  · intro other receiver left event unread member
    apply given.mpr
    rw [feed_setSender] at unread
    split at unread
    next same =>
      rw [channels.feed_subscribe] at unread
      unfold Feed.subscribe at unread
      dsimp only at unread
      by_cases new : receiver = (channels.feed (hub.senders slot)).made
      · rw [new, Function.update_self] at unread
        cases unread
        cases member
      · rw [Function.update_of_ne new] at unread
        rw [same]
        exact shape.sessions unread member
    next => exact shape.sessions unread member
  · intro other owned
    rw [feed_setSender]
    split
    next same =>
      rw [channels.feed_subscribe, ← same]
      exact shape.sending other owned
    next => exact shape.sending other owned
  · intro id' other still
    exact shape.arcs still

theorem release (shape : Shape hub trace) {slot : ℕ}
    (holds : task ∈ holders slot trace) :
    Shape (hub.release slot) (⟨task, hub, .release slot, ()⟩ :: trace) := by
  have given : ∀ {other id'},
      SlotOf (⟨task, hub, .release slot, ()⟩ :: trace) other id' ↔
        SlotOf trace other id' :=
    slotOf_cons_of_ne (fun _ same => by cases same)
  refine ⟨?_, ?_, ?_, ?_, ?_, ?_, ?_, ?_⟩
  · intro id' other still
    exact given.mpr (shape.slotOf still)
  · intro other id' also
    exact shape.made (given.mp also)
  · intro other id' id'' also another
    exact shape.unique (given.mp also) (given.mp another)
  · intro subscription id' also
    rw [subscribed_cons_of_ne (fun _ _ same => by cases same)] at also
    exact given.mpr (shape.subscribed also)
  · intro subscription event also
    rw [received_cons_of_ne (fun _ same => by cases same)] at also
    exact given.mpr (shape.received also)
  · intro other receiver left event unread member
    rw [unread_release] at unread
    exact given.mpr (shape.sessions unread member)
  · intro other owned
    exact sending_release hub slot other shape.sending owned
  · intro id' other still
    have before := shape.arcs still
    simp only [holders, Section.hold, Hub.release]
    by_cases same : other = slot
    · subst same
      have some := List.length_pos_of_mem holds
      rw [Function.update_self, if_pos rfl, List.length_erase_of_mem holds,
        before]
      omega
    · rw [Function.update_of_ne same, if_neg (Ne.symm same)]
      exact before

theorem recv (shape : Shape hub trace) {subscription : Subscription}
    (ready : hub.ready (.recv subscription) = true) (now : ℕ) :
    Shape (exec now hub (.recv subscription)).2
      (⟨task, hub, .recv subscription,
        (exec now hub (.recv subscription)).1⟩ :: trace) := by
  obtain ⟨sender, same, receives⟩ := exec_recv ready now
  have given : ∀ {other id'},
      SlotOf (⟨task, hub, .recv subscription,
        (exec now hub (.recv subscription)).1⟩ :: trace) other id' ↔
        SlotOf trace other id' :=
    slotOf_cons_of_ne (fun _ same => by cases same)
  rw [same]
  refine ⟨?_, ?_, ?_, ?_, ?_, ?_, ?_, ?_⟩
  · intro id' other still
    exact given.mpr (shape.slotOf still)
  · intro other id' also
    exact shape.made (given.mp also)
  · intro other id' id'' also another
    exact shape.unique (given.mp also) (given.mp another)
  · intro other id' also
    rw [subscribed_cons_of_ne (fun _ _ same => by cases same)] at also
    exact given.mpr (shape.subscribed also)
  · intro other event also
    apply given.mpr
    rcases received_cons.mp also with now' | before
    · obtain ⟨sameSubscription, sameEvent⟩ := now'
      have answered : (exec now hub (.recv subscription)).1 = .ok event :=
        sameEvent
      rw [answered] at receives
      obtain ⟨left, unread, member⟩ := receives.mem_of_ok
      rw [← sameSubscription]
      exact shape.sessions unread member
    · exact shape.received before
  · intro other receiver left event unread member
    apply given.mpr
    rw [feed_setSender] at unread
    split at unread
    next sameSlot =>
      obtain ⟨before, unreadBefore, memberBefore⟩ :=
        receives.mem_of_unread unread member
      rw [sameSlot]
      exact shape.sessions unreadBefore memberBefore
    next => exact shape.sessions unread member
  · intro other owned
    rw [feed_setSender]
    split
    next sameSlot =>
      rw [receives.sending_eq, ← sameSlot]
      exact shape.sending other owned
    next => exact shape.sending other owned
  · intro id' other still
    exact shape.arcs still

theorem exec (shape : Shape hub trace) {stage : Stage} {request : Section}
    (owned : own task stage hub trace)
    (allowed : protocol.allows stage request)
    (ready : hub.ready request = true) (now : ℕ) :
    Shape (Hub.exec now hub request).2
      (⟨task, hub, request, (Hub.exec now hub request).1⟩ :: trace) := by
  cases request with
  | register id subject => exact shape.silent trivial rfl rfl rfl rfl
  | adopt id subject => exact shape.silent trivial rfl rfl rfl rfl
  | now => exact shape.silent trivial rfl rfl rfl rfl
  | removeSubject id => exact shape.silent trivial rfl rfl rfl rfl
  | audit event =>
      obtain ⟨slots, made, senders, arcs⟩ := record_same event hub
      exact shape.silent trivial slots made senders arcs
  | slot id => exact shape.slot id
  | subscribe id slot =>
      rw [allows_subscribe allowed] at owned
      exact shape.subscribe owned.1
  | release slot =>
      rw [allows_release allowed] at owned
      exact shape.release owned
  | diffuse id event =>
      have quiet : (Section.diffuse id event).Quiet := trivial
      rcases diffuse_cases hub id event with
        ⟨_, same⟩ | ⟨slot, _, _, same⟩ | ⟨slot, found, same, sent⟩
      · simp only [Hub.exec, same]
        exact shape.silent trivial rfl rfl rfl rfl
      · simp only [Hub.exec, same]
        exact Shape.removeSlot shape quiet id
      · simp only [Hub.exec, same]
        apply Shape.setSender shape quiet
        · intro receiver left unread last member
          rw [sent] at unread
          simp only [Feed.send, Option.map_eq_some_iff] at unread
          obtain ⟨before, unreadBefore, sameLeft⟩ := unread
          rw [← sameLeft] at member
          rcases List.mem_append.mp member with earlier | latest
          · exact shape.sessions unreadBefore earlier
          · rw [List.mem_singleton.mp latest, allows_diffuse allowed]
            exact shape.slotOf found
        · rw [sent]
          rfl
  | removeSlot id =>
      have quiet : (Section.removeSlot id).Quiet := trivial
      exact Shape.removeSlot shape quiet id
  | recv subscription => exact shape.recv ready now
  | unsubscribe subscription =>
      have quiet : (Section.unsubscribe subscription).Quiet := trivial
      apply Shape.setSender shape quiet
      · intro receiver left unread last member
        rw [channels.feed_dropReceiver] at unread
        simp only [Feed.dropReceiver] at unread
        by_cases same : receiver = subscription.receiver
        · rw [same, Function.update_self] at unread
          cases unread
        · rw [Function.update_of_ne same] at unread
          exact shape.sessions unread member
      · rw [channels.feed_dropReceiver]
        rfl

end Shape

namespace Attached

variable {hub after : Hub channels} {trace : Trace channels} {task : ℕ}
  {passage : Passage channels}

theorem keep (attached : Attached hub trace)
    (same : ∀ id subscription, history id subscription (passage :: trace) =
      history id subscription trace)
    (slots : ∀ id slot, hub.slots id = some slot →
      after.slots id = some slot ∧
        (after.feed slot).unread = (hub.feed slot).unread) :
    Attached after (passage :: trace) := by
  intro id subscription past made
  rw [same] at made
  obtain ⟨found, notClosed, left, unread, accounted⟩ :=
    attached id subscription past made
  obtain ⟨still, sameUnread⟩ := slots id subscription.slot found
  refine ⟨still, notClosed, left, ?_, accounted⟩
  rw [sameUnread]
  exact unread

theorem slot (attached : Attached hub trace) (shape : Shape hub trace)
    (id : SessionId) :
    Attached (hub.slot id).2 (⟨task, hub, .slot id, (hub.slot id).1⟩ :: trace) := by
  apply attached.keep (fun _ _ => rfl)
  intro other given found
  unfold Hub.slot
  cases here : hub.slots id with
  | some slot => exact ⟨found, rfl⟩
  | none =>
      have different : other ≠ id := by
        intro same
        rw [same, here] at found
        cases found
      have old : given ≠ hub.made :=
        Nat.ne_of_lt (shape.made (shape.slotOf found))
      constructor
      · exact (Function.update_of_ne different _ _).trans found
      · simp only [feed, Function.update_of_ne old]

theorem subscribe (attached : Attached hub trace) (shape : Shape hub trace)
    {id : SessionId} {slot : ℕ} (timely : hub.slots id = some slot) :
    Attached (hub.setSender slot (channels.subscribe (hub.senders slot)).2)
      (⟨task, hub, .subscribe id slot,
        (channels.subscribe (hub.senders slot)).1⟩ :: trace) := by
  have new := channels.subscribe_fst (hub.senders slot)
  intro other subscription past made
  simp only [history, Section.extend] at made
  split at made
  next same =>
    obtain ⟨sameId, sameSubscription⟩ := same
    cases made
    subst sameId
    subst sameSubscription
    refine ⟨timely, List.not_mem_nil, [], ?_, .unread []⟩
    rw [feed_setSender, if_pos rfl, channels.feed_subscribe, new]
    exact Function.update_self _ _ _
  next different =>
    obtain ⟨found, notClosed, left, unread, accounted⟩ :=
      attached other subscription past made
    refine ⟨found, notClosed, left, ?_, accounted⟩
    rw [feed_setSender]
    split
    next sameSlot =>
      have sameId : id = other := by
        rw [sameSlot] at found
        exact shape.unique (shape.slotOf timely) (shape.slotOf found)
      have older : subscription.receiver ≠
          (channels.feed (hub.senders slot)).made := by
        intro last
        apply different
        refine ⟨sameId, ?_⟩
        rw [new, ← last, ← sameSlot]
      rw [channels.feed_subscribe]
      simp only [Feed.subscribe]
      rw [Function.update_of_ne older, ← sameSlot]
      exact unread
    next => exact unread

theorem removeSlot (attached : Attached hub trace) {id : SessionId}
    (ends : ∀ subscription, history id subscription (passage :: trace) = none)
    (same : ∀ other subscription, other ≠ id →
      history other subscription (passage :: trace) =
        history other subscription trace) :
    Attached (hub.removeSlot id) (passage :: trace) := by
  intro other subscription past made
  have different : other ≠ id := by
    intro sameId
    rw [sameId, ends] at made
    cases made
  rw [same other subscription different] at made
  obtain ⟨found, notClosed, left, unread, accounted⟩ :=
    attached other subscription past made
  refine ⟨?_, notClosed, left, ?_, accounted⟩
  · rw [slots_removeSlot, Function.update_of_ne different]
    exact found
  · rw [unread_removeSlot]
    exact unread

theorem history_eq_none (attached : Attached hub trace) {id : SessionId}
    (alone : ∀ slot, hub.slots id = some slot →
      ∀ receiver, (hub.feed slot).unread receiver = none)
    (subscription : Subscription) : history id subscription trace = none := by
  cases made : history id subscription trace with
  | none => rfl
  | some past =>
      obtain ⟨found, _, left, unread, _⟩ := attached id subscription past made
      rw [alone _ found] at unread
      cases unread

theorem diffuse (attached : Attached hub trace) (shape : Shape hub trace)
    (id : SessionId) (event : SessionEvent) :
    Attached (hub.diffuse id event)
      (⟨task, hub, .diffuse id event, ()⟩ :: trace) := by
  have other : ∀ other subscription, other ≠ id →
      history other subscription (⟨task, hub, .diffuse id event, ()⟩ :: trace) =
        history other subscription trace := by
    intro other subscription different
    exact if_neg (Ne.symm different)
  have ends : (∀ subscription, history id subscription trace = none) →
      ∀ subscription, history id subscription
        (⟨task, hub, .diffuse id event, ()⟩ :: trace) = none := by
    intro none subscription
    simp only [history, Section.extend, if_true, none subscription,
      Option.map_none]
  rcases diffuse_cases hub id event with
    ⟨absent, same⟩ | ⟨slot, found, alone, same⟩ | ⟨slot, found, same, sent⟩
  · have gone : hub.diffuse id event = hub.removeSlot id := by
      rw [same, removeSlot_of_none absent]
    rw [gone]
    apply attached.removeSlot _ other
    apply ends
    apply attached.history_eq_none
    intro slot found
    rw [absent] at found
    cases found
  · rw [same]
    apply attached.removeSlot _ other
    apply ends
    apply attached.history_eq_none
    intro slot' found'
    rw [found] at found'
    cases found'
    exact alone
  · rw [same]
    intro other' subscription past made
    by_cases sameId : other' = id
    · subst sameId
      simp only [history, Section.extend, if_true, Option.map_eq_some_iff]
        at made
      obtain ⟨before, madeBefore, samePast⟩ := made
      obtain ⟨here, notClosed, left, unread, accounted⟩ :=
        attached other' subscription before madeBefore
      rw [found] at here
      cases here
      rw [← samePast]
      refine ⟨found, notClosed, left ++ [event], ?_, accounted.send event⟩
      rw [feed_setSender, if_pos rfl, sent]
      simp only [Feed.send, unread, Option.map_some]
    · rw [other other' subscription sameId] at made
      obtain ⟨here, notClosed, left, unread, accounted⟩ :=
        attached other' subscription past made
      refine ⟨here, notClosed, left, ?_, accounted⟩
      rw [feed_setSender, if_neg]
      · exact unread
      · intro sameSlot
        rw [sameSlot] at here
        exact sameId (shape.unique (shape.slotOf here) (shape.slotOf found))

theorem recv (attached : Attached hub trace) (shape : Shape hub trace)
    {subscription : Subscription}
    (ready : hub.ready (.recv subscription) = true) (now : ℕ) :
    Attached (exec now hub (.recv subscription)).2
      (⟨task, hub, .recv subscription,
        (exec now hub (.recv subscription)).1⟩ :: trace) := by
  obtain ⟨sender, same, receives⟩ := exec_recv ready now
  rw [same]
  intro id other past made
  by_cases sameSubscription : subscription = other
  · subst sameSubscription
    simp only [history, Section.extend, if_true, Option.map_eq_some_iff] at made
    obtain ⟨before, madeBefore, samePast⟩ := made
    obtain ⟨found, notClosed, left, unread, accounted⟩ :=
      attached id subscription before madeBefore
    have sending : (hub.feed subscription.slot).sending = true := by
      apply shape.sending
      rw [shape.arcs found]
      omega
    obtain ⟨open_, rest, unreadAfter, accountedAfter⟩ :=
      accounted.receives unread sending receives
    rw [← samePast]
    refine ⟨found, ?_, rest, ?_, accountedAfter⟩
    · intro closed
      rcases List.mem_append.mp closed with earlier | latest
      · exact notClosed earlier
      · exact open_ (List.mem_singleton.mp latest).symm
    · rw [feed_setSender, if_pos rfl]
      exact unreadAfter
  · simp only [history, Section.extend, if_neg sameSubscription] at made
    obtain ⟨found, notClosed, left, unread, accounted⟩ :=
      attached id other past made
    refine ⟨found, notClosed, left, ?_, accounted⟩
    rw [feed_setSender]
    split
    next sameSlot =>
      have different : other.receiver ≠ subscription.receiver := by
        intro sameReceiver
        apply sameSubscription
        cases subscription
        cases other
        cases sameSlot
        cases sameReceiver
        rfl
      rw [receives.unread_of_ne different, ← sameSlot]
      exact unread
    next => exact unread

theorem unsubscribe (attached : Attached hub trace)
    (subscription : Subscription) :
    Attached
      (hub.setSender subscription.slot (channels.dropReceiver
        subscription.receiver (hub.senders subscription.slot)))
      (⟨task, hub, .unsubscribe subscription, ()⟩ :: trace) := by
  intro id other past made
  simp only [history, Section.extend] at made
  split at made
  next => cases made
  next different =>
    obtain ⟨found, notClosed, left, unread, accounted⟩ :=
      attached id other past made
    refine ⟨found, notClosed, left, ?_, accounted⟩
    rw [feed_setSender]
    split
    next sameSlot =>
      have elsewhere : other.receiver ≠ subscription.receiver := by
        intro sameReceiver
        apply different
        cases subscription
        cases other
        cases sameSlot
        cases sameReceiver
        rfl
      rw [channels.feed_dropReceiver]
      simp only [Feed.dropReceiver]
      rw [Function.update_of_ne elsewhere, ← sameSlot]
      exact unread
    next => exact unread

theorem exec (attached : Attached hub trace) (shape : Shape hub trace)
    {request : Section} (ready : hub.ready request = true) (now : ℕ)
    (timely : Timely trace
      ⟨task, hub, request, (Hub.exec now hub request).1⟩) :
    Attached (Hub.exec now hub request).2
      (⟨task, hub, request, (Hub.exec now hub request).1⟩ :: trace) := by
  cases request with
  | register id subject =>
      exact attached.keep (fun _ _ => rfl) (fun _ _ found => ⟨found, rfl⟩)
  | adopt id subject =>
      exact attached.keep (fun _ _ => rfl) (fun _ _ found => ⟨found, rfl⟩)
  | now => exact attached.keep (fun _ _ => rfl) (fun _ _ found => ⟨found, rfl⟩)
  | removeSubject id =>
      exact attached.keep (fun _ _ => rfl) (fun _ _ found => ⟨found, rfl⟩)
  | audit event =>
      obtain ⟨slots, _, senders, _⟩ := record_same event hub
      apply attached.keep (fun _ _ => rfl)
      intro id slot found
      refine ⟨(congrFun slots id).trans found, ?_⟩
      simp only [feed, Hub.exec, senders]
  | slot id => exact attached.slot shape id
  | subscribe id slot => exact attached.subscribe shape timely
  | release slot =>
      apply attached.keep (fun _ _ => rfl)
      intro id given found
      exact ⟨found, unread_release hub slot given⟩
  | diffuse id event => exact attached.diffuse shape id event
  | removeSlot id =>
      apply attached.removeSlot
      · intro subscription
        exact if_pos rfl
      · intro other subscription different
        exact if_neg (Ne.symm different)
  | recv subscription => exact attached.recv shape ready now
  | unsubscribe subscription => exact attached.unsubscribe subscription

end Attached

/-- What holds in every hub, and while the sections are timely. -/
theorem outline (channels : Broadcast SessionEvent) :
    Outline (system channels) protocol (fun _ => True)
      (fun _ => (none : Option Unit))
      (fun hub trace =>
        Shape hub trace ∧ (Throughout Timely trace → Attached hub trace))
      own where
  obeys := program_obeys
  begins call task hub trace _ _ _ := by cases call <;> trivial
  bare _ _ := rfl
  keeps turn now :=
    ⟨turn.inv.1.exec turn.own turn.allowed turn.ready now, fun timely =>
      (turn.inv.2 timely.2).exec turn.inv.1 turn.ready now timely.1⟩
  reaches {task stage hub trace request} turn now := by
    have allowed := turn.allowed
    cases stage with
    | free => trivial
    | ended => exact allowed.elim
    | subscribing id =>
        cases request with
        | adopt other subject => trivial
        | slot other =>
            cases allowed
            exact ⟨slotOf_cons.mpr (.inl ⟨rfl, rfl⟩), mem_holders_slot⟩
        | _ => exact allowed.elim
    | found id slot =>
        cases request with
        | subscribe other given => exact turn.own.2
        | _ => exact allowed.elim
    | made slot =>
        cases request with
        | release given => trivial
        | _ => exact allowed.elim
  renews _ _ _ has := by cases has
  frames turn now other otherStage different owned _ := by
    cases otherStage with
    | found id slot =>
        exact ⟨owned.1.cons, mem_holders_cons (Ne.symm different) owned.2⟩
    | made slot => exact mem_holders_cons (Ne.symm different) owned
    | _ => trivial
  spawned turn now call other spawns := by cases spawns
  passes turn now call held spawns := by cases spawns

theorem Shape.separate {hub : Hub channels} {trace : Trace channels}
    (shape : Shape hub trace) : Separate trace := by
  intro subscription id event made received
  exact shape.unique (shape.received received) (shape.subscribed made)

theorem timely_of_attached {hub : Hub channels} {trace : Trace channels}
    {task now : ℕ} {request : Section}
    (attached : Attached (exec now hub request).2
      (⟨task, hub, request, (exec now hub request).1⟩ :: trace)) :
    Timely trace ⟨task, hub, request, (exec now hub request).1⟩ := by
  cases request with
  | subscribe id slot =>
      have begins := attached id
        { slot, receiver := (exec now hub (.subscribe id slot)).1 }
        { sent := [], reports := [] } (if_pos ⟨rfl, rfl⟩)
      exact begins.1
  | _ => trivial

/-- In every state that a run of calls on a hub reaches, the subscriptions are
attached to the channels of their sessions and receive no event of another,
exactly when every receiver of the run was made on a slot still in the map. -/
theorem subscriptions_attached_iff (channels : Broadcast SessionEvent)
    (audit : Bool) (capacity : ℕ) (moves : List (Move Call ℕ)) :
    (∀ earlier, earlier <+: moves →
      Attached
        ((system channels).run (Hub.new channels audit capacity) earlier).shared
        ((system channels).run (Hub.new channels audit capacity) earlier).trace ∧
      Separate
        ((system channels).run (Hub.new channels audit capacity) earlier).trace) ↔
    Throughout Timely
      ((system channels).run (Hub.new channels audit capacity) moves).trace := by
  constructor
  · intro reached
    apply System.throughout_of_reached _ moves
      (fun earlier begins => (reached earlier begins).1)
    intro task hub trace request now _ attached
    exact timely_of_attached attached
  · intro timely earlier begins
    have start : Attached (Hub.new channels audit capacity) [] := by
      intro id subscription past made
      cases made
    obtain ⟨stages, holds⟩ := (outline channels).run
      ⟨Shape.new audit capacity, fun _ => start⟩ earlier
      (by intro move _; cases move <;> trivial)
    exact ⟨holds.inv.2 (System.throughout_of_earlier begins timely),
      holds.inv.1.separate⟩

theorem subscriptions_attached_undisturbed :
    ∀ earlier, earlier <+: [.start (.subscribe "alice" "s"), .step 0 0,
        .step 0 0, .step 0 0, .step 0 0,
        .start (.emit ⟨"s", 0, .turnStarted 1⟩), .step 1 0, .step 1 0,
        .start (.emit ⟨"s", 0, .todoChanged⟩), .step 2 0, .step 2 0,
        .start (.recv ⟨0, 0⟩), .step 3 0] →
      Attached
        ((system (Ring.broadcast SessionEvent)).run (Hub.new _ false 16)
          earlier).shared
        ((system (Ring.broadcast SessionEvent)).run (Hub.new _ false 16)
          earlier).trace ∧
      Separate
        ((system (Ring.broadcast SessionEvent)).run (Hub.new _ false 16)
          earlier).trace :=
  (subscriptions_attached_iff (Ring.broadcast SessionEvent) false 16 _).mpr
    (by decide +kernel)

/-- An event between the lookup of the slot and the receiver: the channel goes
before it has one, the subscription that is then returned misses the next
event and reads that its channel is closed, though nobody closed the session. -/
theorem subscription_detached :
    ¬ ∀ moves : List (Move Call ℕ),
      Attached
        ((system (Ring.broadcast SessionEvent)).run (Hub.new _ false 16)
          moves).shared
        ((system (Ring.broadcast SessionEvent)).run (Hub.new _ false 16)
          moves).trace := by
  intro all
  have told := all
    [.start (.subscribe "alice" "s"), .step 0 0, .step 0 0,
      .start (.emit ⟨"s", 0, .turnStarted 1⟩), .step 1 0, .step 1 0,
      .step 0 0, .step 0 0,
      .start (.emit ⟨"s", 0, .todoChanged⟩), .step 2 0, .step 2 0,
      .start (.recv ⟨0, 0⟩), .step 3 0]
    "s" ⟨0, 0⟩
    { sent := [SessionEvent.of ⟨"s", 0, .todoChanged⟩]
      reports := [.error .closed] } rfl
  exact told.2.1 (List.mem_singleton_self _)

end MiryadCore.Interactive.Hub
