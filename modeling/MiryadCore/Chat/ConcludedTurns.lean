import MiryadCore.Chat.TurnEnds

/-!
# The subscribers of a turn see it end

A subscription collects what is told to its session, each event with the turn
that told it.  Of the turns begun since it was made, it finds the end of each
that is over, before the end of any later one: the gate orders the turns of a
session, and each tells its end before it gives back its permit.
-/

namespace MiryadCore.Chat.Bridging.Answers

open Interactive

variable {parts : Parts} {config : ChatConfig} {bridge : Bridge parts}
  {trace : Trace parts} {task process : ℕ} {turn : Manager.Turn}
  {subscription : Subscription} {conditions : Conditions}
  {request : Request}

/-- An event, with the turn that told it. -/
abbrev News : Type := Option Manager.Turn × SessionEvent

/-- What a subscription has been sent of its session, without what it missed,
and how many permits had been given before. -/
structure Mail where
  id : SessionId
  since : ℕ
  attached : Bool
  read : List News
  left : List News

namespace Mail

def news (mail : Mail) : List News :=
  mail.read ++ mail.left

def send (news : News) (mail : Mail) : Mail :=
  { mail with left := mail.left ++ [news] }

def receive : Except RecvError SessionEvent → Mail → Mail
  | .ok _, mail =>
      { mail with
        read := mail.read ++ mail.left.take 1
        left := mail.left.drop 1 }
  | .error (.lagged missed), mail =>
      { mail with left := mail.left.drop missed }
  | .error .closed, mail => mail

/-- The session is closed. -/
def close (id : SessionId) (mail : Mail) : Mail :=
  { mail with attached := mail.attached && id ≠ mail.id }

/-- What a section of the hub makes of the mail of a subscription. -/
def after (hub : Hub parts.channels) (permits : ℕ)
    (subscription : Subscription) (label : Option Manager.Turn) :
    (request : Hub.Section) → request.Reply → Option Mail → Option Mail
  | .subscribe id slot, receiver, mail =>
      if { slot, receiver } = subscription then
        some { id, since := permits, attached := hub.slots id = some slot
               read := [], left := [] }
      else mail
  | .diffuse id event, _, mail =>
      if hub.slots id = some subscription.slot then
        mail.map (send (label, event))
      else mail
  | .recv other, reply, mail =>
      if other = subscription then mail.map (receive reply) else mail
  | .unsubscribe other, _, mail =>
      if other = subscription then none else mail
  | .removeSlot id, _, mail => mail.map (close id)
  | _, _, mail => mail

end Mail

/-- The mail of a subscription that has not been dropped. -/
def mail (process : ℕ) (subscription : Subscription) :
    Trace parts → Option Mail
  | [] => none
  | ⟨_, before, .manager process' label (.hub section_), answer⟩ :: earlier =>
      if process' = process then
        Mail.after (hubOf before process) (gateOf before process).2
          subscription label section_ answer (mail process subscription earlier)
      else mail process subscription earlier
  | _ :: earlier => mail process subscription earlier

/-- The events that a subscription has received. -/
def received (process : ℕ) (subscription : Subscription) :
    Trace parts → List SessionEvent
  | [] => []
  | ⟨_, _, .manager process' _ (.hub (.recv other)), .ok event⟩ :: earlier =>
      if process' = process ∧ other = subscription then
        received process subscription earlier ++ [event]
      else received process subscription earlier
  | _ :: earlier => received process subscription earlier

/-- The end that the turn told is among the news. -/
def TellsEnd (turn : Manager.Turn) (news : List News) : Prop :=
  ∃ event, (ending event).isSome = true ∧ (some turn, event) ∈ news

/-- The mail is that of a client who subscribed before the turn began. -/
structure Awaits (trace : Trace parts) (process : ℕ)
    (subscription : Subscription) (mail_ : Mail) (turn : Manager.Turn) :
    Prop where
  mail : mail process subscription trace = some mail_
  spawned : Spawned trace process turn
  session : mail_.id = turn.session
  since : mail_.since ≤ turn.permit

/-- Each turn that is over has told its end once.  Who subscribed before it
began has received this end or has it left to read, and finds it before the
end of any turn begun later. -/
structure Concluded (bridge : Bridge parts) (trace : Trace parts) : Prop where
  once : ∀ {process turn}, Spawned trace process turn →
    Released trace process turn.permit → told process turn trace = 1
  faithful : ∀ {process subscription mail_},
    mail process subscription trace = some mail_ →
    mail_.read.map Prod.snd = received process subscription trace ∧
    (hubOf bridge process).unread subscription =
      some (mail_.left.map Prod.snd)
  seen : ∀ {process subscription mail_ turn},
    Awaits trace process subscription mail_ turn →
    Released trace process turn.permit → TellsEnd turn mail_.news
  first : ∀ {process subscription mail_ turn later event earlier rest},
    Awaits trace process subscription mail_ turn →
    mail_.news = earlier ++ (some later, event) :: rest →
    (ending event).isSome = true → turn.permit < later.permit →
    TellsEnd turn earlier

/-- The subscription that a passage makes. -/
def subscribes : Passage parts → Option (ℕ × Subscription)
  | ⟨_, _, .manager process _ (.hub (.subscribe _ slot)), receiver⟩ =>
      some (process, { slot, receiver })
  | _ => none

/-- A turn that tells its end is heard by who subscribed before it began: the
channel that was subscribed is still that of the session. -/
def Attached (before : Trace parts) (passage : Passage parts) : Prop :=
  ∀ ended ∈ ends passage, ∀ turn ∈ ended.2.2, ∀ past ∈ before,
    ∀ made ∈ subscribes past, made.1 = ended.1 →
      ∀ mail_ ∈ mail ended.1 made.2 before, mail_.id = turn.session →
        mail_.since ≤ turn.permit → mail_.attached = true

/-- A client that lags misses no end of a turn begun since it subscribed. -/
def Heeds (before : Trace parts) (passage : Passage parts) : Prop :=
  ∀ lagged ∈ lags passage,
    ∀ mail_ ∈ mail lagged.1 lagged.2.1 before,
      ∀ news ∈ mail_.left.take lagged.2.2, ∀ turn ∈ news.1,
        mail_.since ≤ turn.permit → ending news.2 = none

/-- The conditions on a passage, after those before it. -/
structure Attended (before : Trace parts) (passage : Passage parts) :
    Prop where
  assembled : Assembled passage
  attached : Attached before passage
  heeds : Heeds before passage

instance decidableAttended (before : Trace parts) (passage : Passage parts) :
    Decidable (Attended before passage) :=
  have first : Decidable (Attached before passage) := by
    unfold Attached
    infer_instance
  have second : Decidable (Heeds before passage) := by
    unfold Heeds
    infer_instance
  decidable_of_iff (Assembled passage ∧ Attached before passage ∧
      Heeds before passage)
    ⟨fun all => ⟨all.1, all.2.1, all.2.2⟩,
      fun all => ⟨all.assembled, all.attached, all.heeds⟩⟩

/-- What a request makes of the mail of a subscription that it leaves open. -/
inductive Carries (bridge : Bridge parts) (process : ℕ)
    (subscription : Subscription) :
    (request : Request) → request.Reply → Mail → Mail → Prop
  | sent {label id event mail} :
      (hubOf bridge process).slots id = some subscription.slot →
      Carries bridge process subscription
        (.manager process label (.hub (.diffuse id event))) () mail
        (mail.send (label, event))
  | received {label reply mail} :
      Carries bridge process subscription
        (.manager process label (.hub (.recv subscription))) reply mail
        (mail.receive reply)
  | closed {label id mail} :
      Carries bridge process subscription
        (.manager process label (.hub (.removeSlot id))) () mail
        (mail.close id)
  | kept {request answer mail} :
      Request.uses request ≠ some (process, subscription) →
      (∀ label session event,
        request = .manager process label (.hub (.diffuse session event)) →
        (hubOf bridge process).slots session ≠ some subscription.slot) →
      (∀ label id,
        request ≠ .manager process label (.hub (.removeSlot id))) →
      Carries bridge process subscription request answer mail mail

theorem uses_request
    (uses : Request.uses request = some (process, subscription)) :
    ∃ label, request = .manager process label (.hub (.recv subscription)) ∨
      request = .manager process label (.hub (.unsubscribe subscription)) := by
  cases request with
  | manager process' label section_ =>
      cases section_ with
      | hub section_ =>
          cases section_ with
          | recv other =>
              cases uses
              exact ⟨label, .inl rfl⟩
          | unsubscribe other =>
              cases uses
              exact ⟨label, .inr rfl⟩
          | _ => cases uses
      | _ => cases uses
  | _ => cases uses

theorem mail_other {answer : request.Reply}
    (other : ∀ label section_,
      request ≠ .manager process label (.hub section_)) :
    mail process subscription (⟨task, bridge, request, answer⟩ :: trace) =
      mail process subscription trace := by
  cases request with
  | manager process' label section_ =>
      cases section_ with
      | hub section_ =>
          apply if_neg
          intro same
          subst same
          exact other label section_ rfl
      | _ => rfl
  | _ => rfl

theorem mail_self {label : Option Manager.Turn} {section_ : Hub.Section}
    {answer : section_.Reply} :
    mail process subscription
        (⟨task, bridge, .manager process label (.hub section_), answer⟩ ::
          trace) =
      Mail.after (hubOf bridge process) (gateOf bridge process).2 subscription
        label section_ answer (mail process subscription trace) :=
  if_pos rfl

/-- A section that does not concern the subscriptions that are there. -/
def Leaves : Hub.Section → Prop
  | .diffuse _ _ | .removeSlot _ | .recv _ | .unsubscribe _ => False
  | _ => True

theorem Carries.leaves {label : Option Manager.Turn} {section_ : Hub.Section}
    {answer : section_.Reply} {mail : Mail} (leaves : Leaves section_) :
    Carries bridge process subscription
      (.manager process label (.hub section_)) answer mail mail := by
  refine .kept ?_ ?_ ?_
  · intro uses
    obtain ⟨_, same | same⟩ := uses_request uses
    · cases same
      exact leaves
    · cases same
      exact leaves
  · intro _ session event same
    cases same
    exact leaves.elim
  · intro _ id same
    cases same
    exact leaves

/-- A mail is new, or what a request has made of one that was there. -/
theorem mail_cases {answer : request.Reply} {later : Mail}
    (found : mail process subscription
      (⟨task, bridge, request, answer⟩ :: trace) = some later) :
    (∃ label id, request = .manager process label
        (.hub (.subscribe id subscription.slot)) ∧
      HEq answer subscription.receiver ∧
      later = { id, since := (gateOf bridge process).2
                attached := (hubOf bridge process).slots id =
                  some subscription.slot
                read := [], left := [] }) ∨
    ∃ before, mail process subscription trace = some before ∧
      Carries bridge process subscription request answer before later := by
  by_cases asked : ∃ label section_,
      request = .manager process label (.hub section_)
  case neg =>
    rw [mail_other fun label section_ same =>
      asked ⟨label, section_, same⟩] at found
    refine .inr ⟨later, found, .kept ?_ ?_ ?_⟩
    · intro uses
      obtain ⟨label, same | same⟩ := uses_request uses
      · exact asked ⟨_, _, same⟩
      · exact asked ⟨_, _, same⟩
    · intro label session event same
      exact (asked ⟨_, _, same⟩).elim
    · intro label id same
      exact (asked ⟨_, _, same⟩).elim
  obtain ⟨label, section_, rfl⟩ := asked
  rw [mail_self] at found
  cases section_ with
  | subscribe id slot =>
      by_cases same : ({ slot, receiver := answer } : Subscription) =
          subscription
      · have new := (if_pos same).symm.trans found
        cases new
        subst same
        exact .inl ⟨label, id, rfl, .rfl, rfl⟩
      · have old := (if_neg same).symm.trans found
        exact .inr ⟨later, old, .leaves trivial⟩
  | diffuse id event =>
      by_cases reaches : (hubOf bridge process).slots id =
          some subscription.slot
      · obtain ⟨before, old, rfl⟩ := Option.map_eq_some_iff.mp
          ((if_pos reaches).symm.trans found)
        exact .inr ⟨before, old, .sent reaches⟩
      · have old := (if_neg reaches).symm.trans found
        refine .inr ⟨later, old, .kept (fun uses => nomatch uses) ?_
          fun _ _ same => nomatch same⟩
        intro label session event same
        cases same
        exact reaches
  | recv other =>
      by_cases same : other = subscription
      · subst same
        obtain ⟨before, old, rfl⟩ := Option.map_eq_some_iff.mp
          ((if_pos rfl).symm.trans found)
        exact .inr ⟨before, old, .received⟩
      · have old := (if_neg same).symm.trans found
        refine .inr ⟨later, old, .kept ?_ (fun _ _ _ same => nomatch same)
          fun _ _ same => nomatch same⟩
        intro uses
        cases uses
        exact same rfl
  | unsubscribe other =>
      by_cases same : other = subscription
      · cases (if_pos same).symm.trans found
      · have old := (if_neg same).symm.trans found
        refine .inr ⟨later, old, .kept ?_ (fun _ _ _ same => nomatch same)
          fun _ _ same => nomatch same⟩
        intro uses
        cases uses
        exact same rfl
  | removeSlot id =>
      obtain ⟨before, old, rfl⟩ := Option.map_eq_some_iff.mp found
      exact .inr ⟨before, old, .closed⟩
  | _ => exact .inr ⟨later, found, .leaves trivial⟩

/-- What a subscription is given when it is made. -/
theorem subscribed_new {stage : Stage} {label : Option Manager.Turn}
    {id : SessionId}
    (asks : Asks config task stage bridge trace
      (.manager process label (.hub (.subscribe id subscription.slot))))
    (answered : (Bridge.exec conditions bridge (.manager process label
      (.hub (.subscribe id subscription.slot)))).1 = subscription.receiver) :
    SlotOf trace process id subscription.slot ∧
      ¬ (hubOf bridge process).Made subscription ∧
      (hubOf (after conditions bridge (.manager process label
        (.hub (.subscribe id subscription.slot)))) process).Made
          subscription ∧
      (hubOf (after conditions bridge (.manager process label
        (.hub (.subscribe id subscription.slot)))) process).unread
          subscription = some [] := by
  have known : SlotOf trace process id subscription.slot := by
    have allowed := asks.allowed.1
    have holds := asks.own.phase
    obtain ⟨subscriptions, phase⟩ := stage
    cases phase with
    | slotted message process' id' slot' =>
        obtain ⟨rfl, rfl, same⟩ := allowed
        exact same ▸ holds.1
    | _ => exact allowed.elim
  have new : subscription.receiver =
      ((hubOf bridge process).feed subscription.slot).made :=
    answered.symm.trans (parts.channels.subscribe_fst _)
  refine ⟨known, ?_, ⟨?_, ?_⟩, ?_⟩
  · intro made
    exact Nat.ne_of_lt made.2 new
  · rw [hub_self]
    exact asks.inv.made known
  · rw [hub_self]
    simp only [Hub.exec, Hub.feed_setSender, if_true,
      parts.channels.feed_subscribe]
    rw [new]
    exact Nat.lt_succ_self _
  · rw [hub_self]
    unfold Hub.unread
    simp only [Hub.exec, Hub.feed_setSender, if_true,
      parts.channels.feed_subscribe]
    rw [new]
    exact Function.update_self _ _ _

/-- What a subscription reads is taken from what it had left. -/
theorem unread_received (conditions : Conditions)
    (label : Option Manager.Turn) {before : Mail}
    (left : (hubOf bridge process).unread subscription =
      some (before.left.map Prod.snd))
    (ready : (hubOf bridge process).ready (.recv subscription) = true)
    {reply : Except RecvError SessionEvent}
    (answered : (Hub.exec conditions.manager.now (hubOf bridge process)
      (.recv subscription)).1 = reply) :
    (hubOf (after conditions bridge (.manager process label
        (.hub (.recv subscription)))) process).unread subscription =
      some ((before.receive reply).left.map Prod.snd) ∧
    (before.receive reply).read.map Prod.snd =
      before.read.map Prod.snd ++ reply.toOption.toList := by
  obtain ⟨sender, received, receives⟩ :=
    Hub.exec_recv ready conditions.manager.now
  have unread : (hubOf (after conditions bridge (.manager process label
      (.hub (.recv subscription)))) process).unread subscription =
        (parts.channels.feed sender).unread subscription.receiver := by
    rw [hub_self, received]
    unfold Hub.unread
    rw [Hub.feed_setSender, if_pos rfl]
  rw [unread]
  rw [answered] at receives
  unfold Hub.unread at left
  generalize parts.channels.feed sender = later at receives ⊢
  cases receives with
  | event found =>
      rename_i first rest
      obtain ⟨news, later, same, rfl, rfl⟩ :=
        List.map_eq_cons_iff.mp (Option.some.inj (left.symm.trans found))
      refine ⟨?_, ?_⟩
      · simp [Mail.receive, same, Feed.leave]
      · simp [Mail.receive, same, Except.toOption]
  | lagged found some_ =>
      rename_i missed rest
      have same := Option.some.inj (left.symm.trans found)
      refine ⟨?_, ?_⟩
      · simp [Mail.receive, Feed.leave, List.map_drop, same]
      · simp [Mail.receive, Except.toOption]
  | closed found _ =>
      refine ⟨left, ?_⟩
      simp [Mail.receive, Except.toOption]

theorem received_self {label : Option Manager.Turn}
    (answer : Except RecvError SessionEvent) :
    received process subscription (⟨task, bridge, .manager process label
        (.hub (.recv subscription)), answer⟩ :: trace) =
      received process subscription trace ++ answer.toOption.toList := by
  cases answer with
  | ok event => exact if_pos ⟨rfl, rfl⟩
  | error error => exact (List.append_nil _).symm

theorem received_other {answer : request.Reply}
    (other : ∀ label,
      request ≠ .manager process label (.hub (.recv subscription))) :
    received process subscription (⟨task, bridge, request, answer⟩ :: trace) =
      received process subscription trace := by
  cases request with
  | manager process' label section_ =>
      cases section_ with
      | hub section_ =>
          cases section_ with
          | recv subscription' =>
              cases answer with
              | ok event =>
                  apply if_neg
                  intro same
                  obtain ⟨rfl, rfl⟩ := same
                  exact other label rfl
              | error error => rfl
          | _ => rfl
      | _ => rfl
  | _ => rfl

theorem slots_after {id : SessionId}
    (found : (hubOf bridge process).slots id = some subscription.slot)
    (alive : (hubOf bridge process).unread subscription ≠ none)
    (kept : ∀ label, request ≠ .manager process label (.hub (.removeSlot id))) :
    (hubOf (after conditions bridge request) process).slots id =
      some subscription.slot := by
  by_cases asked : ∃ label section_,
      request = .manager process label (.hub section_)
  · obtain ⟨label, section_, rfl⟩ := asked
    rw [hub_self]
    exact Hub.slots_kept found alive (fun same => kept label (same ▸ rfl)) _
  · rw [hub_other fun label section_ here => asked ⟨label, section_, here⟩]
    exact found

namespace Carries

variable {answer : request.Reply} {before later : Mail}

theorem id_eq (carries : Carries bridge process subscription request answer
    before later) : later.id = before.id := by
  cases carries with
  | @received label reply =>
      cases reply with
      | ok event => rfl
      | error error => cases error <;> rfl
  | _ => rfl

theorem since_eq (carries : Carries bridge process subscription request answer
    before later) : later.since = before.since := by
  cases carries with
  | @received label reply =>
      cases reply with
      | ok event => rfl
      | error error => cases error <;> rfl
  | _ => rfl

theorem attached (carries : Carries bridge process subscription request answer
    before later) (open_ : later.attached = true) :
    before.attached = true ∧ ∀ label,
      request ≠ .manager process label (.hub (.removeSlot before.id)) := by
  cases carries with
  | sent reaches => exact ⟨open_, nofun⟩
  | @received label reply =>
      refine ⟨?_, nofun⟩
      cases reply with
      | ok event => exact open_
      | error error => cases error <;> exact open_
  | closed =>
      have both := (Bool.and_eq_true _ _).mp open_
      refine ⟨both.1, ?_⟩
      intro label same
      cases same
      exact of_decide_eq_true both.2 rfl
  | kept unused unsent notRemoved => exact ⟨open_, fun label => notRemoved _ _⟩

/-- News were there, or have just been told. -/
theorem news (carries : Carries bridge process subscription request answer
    before later) {label : Option Manager.Turn} {event : SessionEvent}
    (member : (label, event) ∈ later.news) :
    (label, event) ∈ before.news ∨ ∃ id,
      request = .manager process label (.hub (.diffuse id event)) ∧
      (hubOf bridge process).slots id = some subscription.slot := by
  cases carries with
  | @sent label' id event' _ reaches =>
      have split : (label, event) ∈
          before.read ++ (before.left ++ [(label', event')]) := member
      rw [← List.append_assoc, List.mem_append, List.mem_singleton] at split
      rcases split with old | new
      · exact .inl old
      · cases new
        exact .inr ⟨id, rfl, reaches⟩
  | @received label' reply =>
      left
      have parts := List.mem_append.mp member
      cases reply with
      | ok event' =>
          have same : before.news = before.read ++ before.left.take 1 ++
              before.left.drop 1 := by
            rw [List.append_assoc, List.take_append_drop]
            rfl
          exact same ▸ member
      | error error =>
          cases error with
          | lagged missed =>
              rcases parts with read | left
              · exact List.mem_append_left _ read
              · exact List.mem_append_right _ (List.mem_of_mem_drop left)
          | closed => exact member
  | closed => exact .inl member
  | kept => exact .inl member

end Carries

/-- What each mail says of its subscription. -/
structure Delivered (bridge : Bridge parts) (trace : Trace parts) : Prop where
  made : ∀ {process subscription mail_},
    mail process subscription trace = some mail_ →
    (hubOf bridge process).Made subscription
  unmade : ∀ {process subscription},
    received process subscription trace ≠ [] →
    (hubOf bridge process).Made subscription
  slotted : ∀ {process subscription mail_},
    mail process subscription trace = some mail_ →
    SlotOf trace process mail_.id subscription.slot
  since : ∀ {process subscription mail_},
    mail process subscription trace = some mail_ →
    mail_.since ≤ (gateOf bridge process).2
  read : ∀ {process subscription mail_},
    mail process subscription trace = some mail_ →
    mail_.read.map Prod.snd = received process subscription trace
  left : ∀ {process subscription mail_},
    mail process subscription trace = some mail_ →
    (hubOf bridge process).unread subscription =
      some (mail_.left.map Prod.snd)
  placed : ∀ {process subscription mail_},
    mail process subscription trace = some mail_ → mail_.attached = true →
    (hubOf bridge process).slots mail_.id = some subscription.slot
  labelled : ∀ {process subscription mail_ turn event},
    mail process subscription trace = some mail_ →
    (some turn, event) ∈ mail_.news →
    Spawned trace process turn ∧ turn.session = mail_.id

theorem made_of_recv {stage : Stage} {label : Option Manager.Turn}
    (asks : Asks config task stage bridge trace
      (.manager process label (.hub (.recv subscription)))) :
    (hubOf bridge process).Made subscription :=
  asks.inv.receivers (owner_of_uses asks.own asks.allowed rfl)

theorem teller_of_sent {stage : Stage} {label : Option Manager.Turn}
    {id : SessionId} {event : SessionEvent} {before : Mail}
    (asks : Asks config task stage bridge trace
      (.manager process label (.hub (.diffuse id event))))
    (slotted : SlotOf trace process before.id subscription.slot)
    (reaches : (hubOf bridge process).slots id = some subscription.slot) :
    ∃ turn, label = some turn ∧ Spawned trace process turn ∧
      Held bridge trace process turn.session turn.permit ∧
      id = turn.session ∧ turn.session = before.id := by
  obtain ⟨turn, phase, rfl, rfl⟩ := phase_of_diffuse asks.allowed.1
  obtain ⟨held, spawned⟩ := phase ▸ asks.own.phase
  exact ⟨turn, rfl, spawned, held, rfl,
    asks.inv.unique (asks.inv.slots reaches) slotted⟩

theorem Delivered.step {stage : Stage} (delivered : Delivered bridge trace)
    (asks : Asks config task stage bridge trace request)
    (conditions : Conditions) :
    Delivered (after conditions bridge request)
      (passed task conditions bridge request :: trace) where
  made := by
    intro process subscription mail_ found
    rcases mail_cases found with
      ⟨label, id, rfl, answered, rfl⟩ | ⟨before, old, carries⟩
    · exact (subscribed_new asks (eq_of_heq answered)).2.2.1
    · exact made_after (delivered.made old) conditions asks.ready
  unmade := by
    intro process subscription some_
    by_cases reads : ∃ label,
        request = .manager process label (.hub (.recv subscription))
    · obtain ⟨label, rfl⟩ := reads
      exact made_after (made_of_recv asks) conditions asks.ready
    · rw [received_other fun label same => reads ⟨label, same⟩] at some_
      exact made_after (delivered.unmade some_) conditions asks.ready
  slotted := by
    intro process subscription mail_ found
    rcases mail_cases found with
      ⟨label, id, rfl, answered, rfl⟩ | ⟨before, old, carries⟩
    · exact (subscribed_new asks (eq_of_heq answered)).1.cons
    · rw [carries.id_eq]
      exact (delivered.slotted old).cons
  since := by
    intro process subscription mail_ found
    have grows := permits_le conditions bridge request process
    rcases mail_cases found with
      ⟨label, id, rfl, _, rfl⟩ | ⟨before, old, carries⟩
    · exact grows
    · rw [carries.since_eq]
      exact Nat.le_trans (delivered.since old) grows
  read := by
    intro process subscription mail_ found
    rcases mail_cases found with
      ⟨label, id, rfl, answered, rfl⟩ | ⟨before, old, carries⟩
    · rw [received_other]
      · by_contra other
        exact (subscribed_new asks (eq_of_heq answered)).2.1
          (delivered.unmade fun none => other none.symm)
      · exact nofun
    · have same := delivered.read old
      cases carries with
      | sent reaches =>
          rw [received_other]
          · exact same
          · exact nofun
      | received =>
          rw [received_self, ← same]
          exact (unread_received conditions none (delivered.left old)
            asks.ready rfl).2
      | closed =>
          rw [received_other]
          · exact same
          · exact nofun
      | kept unused unsent notRemoved =>
          rw [received_other]
          · exact same
          · intro label reads
            subst reads
            exact unused rfl
  left := by
    intro process subscription mail_ found
    rcases mail_cases found with
      ⟨label, id, rfl, answered, rfl⟩ | ⟨before, old, carries⟩
    · exact (subscribed_new asks (eq_of_heq answered)).2.2.2
    · have same := delivered.left old
      have made := delivered.made old
      have ready : Bridge.ready bridge request = true := asks.ready
      cases carries with
      | sent reaches =>
          rw [unread_sent reaches, same]
          simp [Mail.send]
      | @received label =>
          exact (unread_received conditions label same asks.ready rfl).1
      | closed =>
          refine (unread_step made conditions ready ?_ ?_).trans same
          · exact fun same => nomatch same
          · exact fun _ _ _ same => nomatch same
      | kept unused unsent notRemoved =>
          rw [unread_step made conditions ready unused unsent]
          exact same
  placed := by
    intro process subscription mail_ found open_
    rcases mail_cases found with
      ⟨label, id, rfl, answered, rfl⟩ | ⟨before, old, carries⟩
    · rw [hub_self]
      exact of_decide_eq_true open_
    · obtain ⟨openBefore, kept⟩ := carries.attached open_
      rw [carries.id_eq]
      apply slots_after (delivered.placed old openBefore) _ kept
      rw [delivered.left old]
      exact nofun
  labelled := by
    intro process subscription mail_ turn event found member
    rcases mail_cases found with
      ⟨label, id, rfl, _, rfl⟩ | ⟨before, old, carries⟩
    · cases member
    · rw [carries.id_eq]
      rcases carries.news member with earlier | ⟨id, rfl, reaches⟩
      · obtain ⟨spawned, same⟩ := delivered.labelled old earlier
        exact ⟨spawned.cons, same⟩
      · obtain ⟨_, same, spawned, _, _, session⟩ :=
          teller_of_sent asks (delivered.slotted old) reaches
        cases same
        exact ⟨spawned.cons, session⟩

/-- A turn that is not over holds the gate of its session, as its last. -/
structure Gated (bridge : Bridge parts) (trace : Trace parts) : Prop where
  gate : ∀ {process turn}, Spawned trace process turn →
    Released trace process turn.permit ∨
      Held bridge trace process turn.session turn.permit
  latest : ∀ {process permit turn},
    holder process turn.session trace = some permit →
    Spawned trace process turn → turn.permit ≤ permit

/-- The gate is held as it was, or with a new permit. -/
theorem holder_next {id : SessionId} {permit : ℕ}
    (held : holder process id (passed task conditions bridge request :: trace) =
      some permit) :
    holder process id trace = some permit ∨
      permit = (gateOf bridge process).2 ∧
        ∃ label, request = .manager process label (.tryBegin id) := by
  by_cases begins : ∃ label, request = .manager process label (.tryBegin id)
  · obtain ⟨label, rfl⟩ := begins
    have asked : passed task conditions bridge
        (.manager process label (.tryBegin id)) =
          ⟨task, bridge, .manager process label (.tryBegin id),
            (Bridge.exec conditions bridge
              (.manager process label (.tryBegin id))).1⟩ := rfl
    rw [asked] at held
    rcases tryBegin_cases conditions bridge process label id with
      ⟨error, answered, _⟩ | ⟨answered, _⟩
    · rw [answered] at held
      exact .inl held
    · rw [answered] at held
      have new := (if_pos ⟨rfl, rfl⟩).symm.trans held
      exact .inr ⟨(Option.some.inj new).symm, label, rfl⟩
  by_cases releases : ∃ label permit',
      request = .manager process label (.release id permit')
  · obtain ⟨label, permit', rfl⟩ := releases
    cases (if_pos ⟨rfl, rfl⟩).symm.trans held
  · rw [holder_cons (fun label here => begins ⟨label, here⟩)
      fun label permit' here => releases ⟨label, permit', here⟩] at held
    exact .inl held

theorem Gated.step {stage : Stage} (gated : Gated bridge trace)
    (asks : Asks config task stage bridge trace request)
    (conditions : Conditions) :
    Gated (after conditions bridge request)
      (passed task conditions bridge request :: trace) where
  gate := by
    intro process turn spawned
    rcases spawned_step asks spawned with earlier | ⟨_, held, label, rfl⟩
    · exact held_or_released asks.own asks.allowed (gated.gate earlier)
        conditions
    · exact .inr (held.step task conditions fun _ _ same => by cases same)
  latest := by
    intro process permit turn holds spawned
    rcases holder_next holds with before | ⟨rfl, label, rfl⟩
    · rcases spawned_step asks spawned with earlier | ⟨_, held, _⟩
      · exact gated.latest before earlier
      · exact (Option.some.inj (held.holder.symm.trans before)).le
    · rcases spawned_step asks spawned with earlier | ⟨_, _, _, same⟩
      · exact (asks.inv.given earlier).le
      · cases same

theorem TellsEnd.later {news more : List News} (tells : TellsEnd turn news)
    (kept : ∀ one ∈ news, one ∈ more) : TellsEnd turn more := by
  obtain ⟨event, ends_, member⟩ := tells
  exact ⟨event, ends_, kept _ member⟩

theorem TellsEnd.skip {first missed rest : List News}
    (tells : TellsEnd turn (first ++ (missed ++ rest)))
    (silent : ∀ news ∈ missed, ∀ other ∈ news.1, other = turn →
      ending news.2 = none) :
    TellsEnd turn (first ++ rest) := by
  obtain ⟨event, ends_, member⟩ := tells
  refine ⟨event, ends_, ?_⟩
  rw [List.mem_append, List.mem_append] at member
  rw [List.mem_append]
  rcases member with read | lost | left
  · exact .inl read
  · rw [silent _ lost turn rfl rfl] at ends_
    cases ends_
  · exact .inr left

namespace Carries

variable {answer : request.Reply} {before later : Mail}

/-- Some of the news are missed, which tell no end of a turn that began
since. -/
def Misses (before later : Mail) : Prop :=
  ∃ first missed rest, before.news = first ++ (missed ++ rest) ∧
    later.news = first ++ rest ∧
    ∀ news ∈ missed, ∀ turn ∈ news.1, before.since ≤ turn.permit →
      ending news.2 = none

theorem misses_none (same : later.news = before.news) :
    Misses before later := by
  refine ⟨before.news, [], [], (List.append_nil _).symm, ?_, ?_⟩
  · rw [same, List.append_nil]
  · intro news member
    cases member

/-- What is missed, if anything, tells no end of a turn that began since. -/
theorem news_cases (carries : Carries bridge process subscription request answer
      before later)
    (found : mail process subscription trace = some before)
    (heeds : Heeds trace ⟨task, bridge, request, answer⟩) :
    (∃ label id event,
      request = .manager process label (.hub (.diffuse id event)) ∧
      (hubOf bridge process).slots id = some subscription.slot ∧
      later.news = before.news ++ [(label, event)]) ∨
    Misses before later := by
  cases carries with
  | @sent label id event _ reaches =>
      exact .inl ⟨label, id, event, rfl, reaches,
        (List.append_assoc _ _ _).symm⟩
  | @received label reply =>
      right
      cases reply with
      | ok event =>
          apply misses_none
          show before.read ++ before.left.take 1 ++ before.left.drop 1 = _
          rw [List.append_assoc, List.take_append_drop]
          rfl
      | error error =>
          cases error with
          | lagged missed =>
              refine ⟨before.read, before.left.take missed,
                before.left.drop missed, ?_, rfl, ?_⟩
              · rw [List.take_append_drop]
                rfl
              · intro news member turn told since
                exact heeds (process, subscription, missed) rfl before found
                  news member turn told since
          | closed => exact misses_none rfl
  | closed => exact .inr (misses_none rfl)
  | kept => exact .inr (misses_none rfl)

theorem tells (carries : Carries bridge process subscription request answer
      before later)
    (found : mail process subscription trace = some before)
    (heeds : Heeds trace ⟨task, bridge, request, answer⟩)
    (since : before.since ≤ turn.permit) (tells : TellsEnd turn before.news) :
    TellsEnd turn later.news := by
  rcases carries.news_cases found heeds with
    ⟨label, id, event, _, _, grown⟩ | ⟨first, missed, rest, old, new, silent⟩
  · rw [grown]
    exact tells.later fun one member => List.mem_append_left _ member
  · rw [old] at tells
    rw [new]
    apply tells.skip
    intro news member other told same
    subst same
    exact silent news member other told since

/-- A news has been told just now, or had the same ends of turns before it. -/
theorem split (carries : Carries bridge process subscription request answer
      before later)
    (found : mail process subscription trace = some before)
    (heeds : Heeds trace ⟨task, bridge, request, answer⟩) {news : News}
    {earlier rest : List News} (splits : later.news = earlier ++ news :: rest) :
    (∃ label id event,
      request = .manager process label (.hub (.diffuse id event)) ∧
      (hubOf bridge process).slots id = some subscription.slot ∧
      news = (label, event) ∧ earlier = before.news) ∨
    ∃ earlier' rest', before.news = earlier' ++ news :: rest' ∧
      ∀ turn : Manager.Turn, before.since ≤ turn.permit →
        TellsEnd turn earlier' → TellsEnd turn earlier := by
  rcases carries.news_cases found heeds with
    ⟨label, id, event, asked, reaches, grown⟩ |
    ⟨first, missed, last, old, new, silent⟩
  · rw [grown] at splits
    rcases List.append_eq_append_iff.mp splits with
      ⟨between, same, tail⟩ | ⟨between, same, tail⟩
    · cases between with
      | nil =>
          obtain ⟨here, _⟩ := List.cons.inj tail
          rw [List.append_nil] at same
          exact .inl ⟨label, id, event, asked, reaches, here.symm, same⟩
      | cons one between =>
          have none := (List.cons.inj tail).2
          cases between <;> cases none
    · cases between with
      | nil =>
          rw [List.append_nil] at same
          obtain ⟨here, _⟩ := List.cons.inj tail
          exact .inl ⟨label, id, event, asked, reaches, here, same.symm⟩
      | cons one between =>
          obtain ⟨rfl, _⟩ := List.cons.inj tail
          exact .inr ⟨earlier, between, same, fun _ _ tells => tells⟩
  · rw [new] at splits
    right
    rcases List.append_eq_append_iff.mp splits with
      ⟨between, same, tail⟩ | ⟨between, same, tail⟩
    · refine ⟨first ++ (missed ++ between), rest, ?_, ?_⟩
      · rw [old, tail]
        simp only [List.append_assoc]
      · intro turn since tells
        rw [same]
        apply tells.skip
        intro news member other told here
        subst here
        exact silent news member other told since
    · cases between with
      | nil =>
          refine ⟨first ++ missed, rest, ?_, ?_⟩
          · rw [old, List.append_assoc, ← List.nil_append last, ← tail]
          · intro turn since tells
            rw [List.append_nil] at same
            rw [← List.append_nil missed] at tells
            rw [← same, ← List.append_nil first]
            apply tells.skip
            intro news member other told here
            subst here
            exact silent news member other told since
      | cons one between =>
          obtain ⟨rfl, _⟩ := List.cons.inj tail
          refine ⟨earlier, between ++ (missed ++ last), ?_,
            fun _ _ tells => tells⟩
          rw [old, same, List.append_assoc]
          rfl

end Carries

theorem subscribed_of_mail {mail_ : Mail}
    (found : mail process subscription trace = some mail_) :
    ∃ past ∈ trace, subscribes past = some (process, subscription) := by
  induction trace generalizing mail_ with
  | nil => cases found
  | cons passage earlier induction =>
      obtain ⟨task, before, request, answer⟩ := passage
      rcases mail_cases found with
        ⟨label, id, rfl, same, _⟩ | ⟨previous, old, _⟩
      · refine ⟨_, List.mem_cons_self, ?_⟩
        obtain rfl : answer = subscription.receiver := eq_of_heq same
        rfl
      · obtain ⟨past, member, made⟩ := induction old
        exact ⟨past, List.mem_cons_of_mem _ member, made⟩

/-- The ends that were told are found by who waits for them, in their order. -/
structure Heard (trace : Trace parts) : Prop where
  known : ∀ {process turn}, told process turn trace ≠ 0 →
    Spawned trace process turn
  seen : ∀ {process subscription mail_ turn},
    mail process subscription trace = some mail_ →
    told process turn trace ≠ 0 → mail_.id = turn.session →
    mail_.since ≤ turn.permit → TellsEnd turn mail_.news
  first : ∀ {process subscription mail_ turn later event earlier rest},
    Awaits trace process subscription mail_ turn →
    mail_.news = earlier ++ (some later, event) :: rest →
    (ending event).isSome = true → turn.permit < later.permit →
    TellsEnd turn earlier

theorem told_cases {answer : request.Reply}
    (tells : told process turn (⟨task, bridge, request, answer⟩ :: trace) ≠
      0) :
    told process turn trace ≠ 0 ∨ ∃ event, (ending event).isSome = true ∧
      request = .manager process (some turn)
        (.hub (.diffuse turn.session event)) := by
  by_cases now : tellsEnd process turn
      (⟨task, bridge, request, answer⟩ : Passage parts) = true
  · exact .inr (tellsEnd_request now)
  · left
    unfold told at tells ⊢
    rwa [List.countP_cons, if_neg now] at tells

theorem Heard.known_step {stage : Stage} (heard : Heard trace)
    (asks : Asks config task stage bridge trace request)
    (tells : told process turn (passed task conditions bridge request ::
      trace) ≠ 0) :
    Spawned (passed task conditions bridge request :: trace) process turn := by
  rcases told_cases tells with before | ⟨event, _, rfl⟩
  · exact (heard.known before).cons
  · obtain ⟨other, phase, same, _⟩ := phase_of_diffuse asks.allowed.1
    obtain ⟨_, spawned⟩ := phase ▸ asks.own.phase
    cases same
    exact spawned.cons

theorem Heard.seen_step {stage : Stage} {mail_ : Mail} (heard : Heard trace)
    (delivered : Delivered bridge trace)
    (asks : Asks config task stage bridge trace request)
    (attended : Attended trace (passed task conditions bridge request))
    (found : mail process subscription
      (passed task conditions bridge request :: trace) = some mail_)
    (tells : told process turn (passed task conditions bridge request ::
      trace) ≠ 0)
    (session : mail_.id = turn.session) (since : mail_.since ≤ turn.permit) :
    TellsEnd turn mail_.news := by
  rcases mail_cases found with
    ⟨label, id, rfl, _, rfl⟩ | ⟨before, old, carries⟩
  · rcases told_cases tells with earlier | ⟨event, _, same⟩
    · have given := asks.inv.given (heard.known earlier)
      exact (Nat.not_le_of_lt given since).elim
    · cases same
  · rw [carries.id_eq] at session
    rw [carries.since_eq] at since
    rcases told_cases tells with earlier | ⟨event, ends_, rfl⟩
    · exact carries.tells old attended.heeds since
        (heard.seen old earlier session since)
    · have ended : (process, turn.session, some turn) ∈ ends
          (passed task conditions bridge (.manager process (some turn)
            (.hub (.diffuse turn.session event)))) := by
        obtain ⟨how, same⟩ := Option.isSome_iff_exists.mp ends_
        show Option.map _ (ending event) = _
        rw [same]
        rfl
      obtain ⟨past, member, made⟩ := subscribed_of_mail old
      have open_ := attended.attached _ ended turn rfl past member _ made rfl
        before old session since
      have reaches := delivered.placed old open_
      rw [session] at reaches
      cases carries with
      | @sent _ _ _ before _ =>
          refine ⟨event, ends_, ?_⟩
          exact List.mem_append_right _
            (List.mem_append_right _ (List.mem_singleton_self _))
      | kept unused unsent notRemoved =>
          exact (unsent _ _ _ rfl reaches).elim

theorem Heard.first_step {stage : Stage} {mail_ : Mail} {later : Manager.Turn}
    {event : SessionEvent} {earlier rest : List News} (heard : Heard trace)
    (delivered : Delivered bridge trace) (gated : Gated bridge trace)
    (once : Released trace process turn.permit →
      Spawned trace process turn → told process turn trace = 1)
    (asks : Asks config task stage bridge trace request)
    (attended : Attended trace (passed task conditions bridge request))
    (awaits : Awaits (passed task conditions bridge request :: trace) process
      subscription mail_ turn)
    (splits : mail_.news = earlier ++ (some later, event) :: rest)
    (ends_ : (ending event).isSome = true)
    (begun : turn.permit < later.permit) : TellsEnd turn earlier := by
  obtain ⟨found, spawned, session, since⟩ := awaits
  rcases mail_cases found with
    ⟨label, id, rfl, _, rfl⟩ | ⟨before, old, carries⟩
  · have empty : ([] : List News) = earlier ++ (some later, event) :: rest :=
      splits
    cases earlier <;> cases empty
  · rw [carries.id_eq] at session
    rw [carries.since_eq] at since
    rcases carries.split old attended.heeds splits with
      ⟨label, id, _, rfl, reaches, same, rfl⟩ | ⟨earlier', rest', was, keeps⟩
    · cases same
      obtain ⟨_, same, _, held, _, slotted⟩ :=
        teller_of_sent asks (delivered.slotted old) reaches
      cases same
      rcases spawned_step asks spawned with known | ⟨_, _, _, same⟩
      · rcases gated.gate known with released | holds
        · apply heard.seen old _ session since
          rw [once released known]
          exact Nat.one_ne_zero
        · rw [slotted, session] at held
          have taken := held.holder.symm.trans holds.holder
          rw [Option.some.inj taken] at begun
          exact (Nat.lt_irrefl _ begun).elim
      · cases same
    · apply keeps turn since
      rcases spawned_step asks spawned with known | ⟨_, held, _⟩
      · exact heard.first ⟨old, known, session, since⟩ was ends_ begun
      · obtain ⟨spawnedLater, sameSession⟩ := delivered.labelled old
          (was ▸ List.mem_append_right _ List.mem_cons_self)
        have holder := held.holder
        rw [← session, ← sameSession] at holder
        have last := gated.latest holder spawnedLater
        exact (Nat.not_le_of_lt begun last).elim

theorem assembled_of (attended : Throughout Attended trace) :
    ∀ passage ∈ trace, Assembled passage := by
  induction trace with
  | nil => exact fun passage member => by cases member
  | cons passage earlier induction =>
      intro other member
      rcases List.mem_cons.mp member with here | before
      · exact here ▸ attended.1.assembled
      · exact induction attended.2 other before

/-- What holds of each run that meets the conditions. -/
structure Kept (bridge : Bridge parts) (trace : Trace parts) : Prop where
  delivered : Delivered bridge trace
  gated : Gated bridge trace
  heard : Heard trace

theorem kept_of_run {shared : Bridge parts}
    {moves : List (Move Call Conditions)} (sound : Sound shared [])
    (outside : ∀ move ∈ moves, move.Admitted Outside)
    (concluded : ∀ passage ∈ ((system parts config).run shared moves).trace,
      Concludes passage)
    (attended : Throughout Attended
      ((system parts config).run shared moves).trace) :
    Kept ((system parts config).run shared moves).shared
      ((system parts config).run shared moves).trace := by
  apply exchanges_outline.run_holds sound
    (fun pool => (∀ passage ∈ pool.trace, Concludes passage) →
      Throughout Attended pool.trace → Kept pool.shared pool.trace)
  case idle =>
    intro _ _
    refine ⟨⟨?_, ?_, ?_, ?_, ?_, ?_, ?_, ?_⟩, ⟨?_, ?_⟩, ⟨?_, ?_, ?_⟩⟩
    · exact nofun
    · exact fun some_ => (some_ rfl).elim
    · exact nofun
    · exact nofun
    · exact nofun
    · exact nofun
    · exact nofun
    · exact nofun
    · intro process turn spawned
      obtain ⟨_, _, _, member⟩ := spawned
      cases member
    · exact nofun
    · exact fun some_ => (some_ rfl).elim
    · exact nofun
    · intro process subscription mail_ turn later event earlier rest awaits
      cases awaits.mail
  case starts =>
    intro moves call started kept
    exact kept
  case steps =>
    intro moves task stage conditions call request rest outside found asks
      kept concluded attended
    have past := fun passage member =>
      concluded passage (List.mem_cons_of_mem _ member)
    obtain ⟨delivered, gated, heard⟩ := kept past attended.2
    refine ⟨delivered.step asks conditions, gated.step asks conditions, ?_⟩
    refine ⟨heard.known_step asks, heard.seen_step delivered asks attended.1,
      heard.first_step delivered gated ?_ asks attended.1⟩
    intro released spawned
    exact told_of_released sound outside past (assembled_of attended.2)
      spawned released
  case admitted => exact outside
  case _ => exact concluded
  case _ => exact attended

/-- In every run that meets the conditions, each turn that is over has told
its end once, and those who subscribed before it began find this end before
that of any later turn. -/
theorem concluded_turns (config : ChatConfig) (limits : ℕ → Limits)
    (admins : ℕ → String → Bool) (audit : ℕ → Bool) (capacity : ℕ → ℕ)
    (moves : List (Move Call Conditions))
    (outside : ∀ move ∈ moves, move.Admitted Outside)
    (concludes : ∀ passage ∈ ((system parts config).run
      (Bridge.new parts (newManagers parts limits admins audit capacity))
      moves).trace, Concludes passage)
    (attended : Throughout Attended ((system parts config).run
      (Bridge.new parts (newManagers parts limits admins audit capacity))
      moves).trace) :
    ∀ earlier, earlier <+: moves →
      Concluded ((system parts config).run (Bridge.new parts
          (newManagers parts limits admins audit capacity)) earlier).shared
        ((system parts config).run (Bridge.new parts
          (newManagers parts limits admins audit capacity)) earlier).trace := by
  intro earlier begins_
  have start := @sound_new parts limits admins audit capacity
  have suffix : ((system parts config).run (Bridge.new parts
        (newManagers parts limits admins audit capacity)) earlier).trace <:+
      ((system parts config).run (Bridge.new parts
        (newManagers parts limits admins audit capacity)) moves).trace :=
    System.trace_suffix _ _ begins_
  have outsideBefore : ∀ move ∈ earlier, move.Admitted Outside :=
    fun move member => outside move (begins_.subset member)
  have concludesBefore := fun passage member =>
    concludes passage (suffix.subset member)
  have attendedBefore := System.throughout_of_earlier begins_ attended
  have kept := kept_of_run start outsideBefore concludesBefore attendedBefore
  have once : ∀ {process turn}, Spawned _ process turn →
      Released _ process turn.permit → told process turn _ = 1 :=
    told_of_released start outsideBefore concludesBefore
      (assembled_of attendedBefore)
  refine ⟨once, ?_, ?_, kept.heard.first⟩
  · intro process subscription mail_ found
    exact ⟨kept.delivered.read found, kept.delivered.left found⟩
  · intro process subscription mail_ turn awaits released
    apply kept.heard.seen awaits.mail _ awaits.session awaits.since
    rw [once awaits.spawned released]
    exact Nat.one_ne_zero

/-- Runs from the start, with the settings by default. -/
def concluding (moves : List (Move Call Conditions)) :
    Pool Call Request Request.Reply
      (Bridge ⟨Ring.broadcast SessionEvent, TurnGate.listed⟩)
      (Except String Unit) :=
  (system ⟨Ring.broadcast SessionEvent, TurnGate.listed⟩
    ChatConfig.default).run (Bridge.new _ (newManagers _
      (fun _ => ⟨8, 1000⟩) (fun _ _ => false) (fun _ => false)
      fun _ => 256)) moves

theorem concluded_turns_conversation :
    Concluded (concluding conversation).shared
      (concluding conversation).trace := by
  have outside : ∀ move ∈ conversation, move.Admitted Outside := by
    intro move member
    cases move with
    | step task conditions => trivial
    | start call =>
        simp only [conversation, List.mem_append, List.mem_singleton,
          List.mem_replicate, reduceCtorEq, and_false, or_false,
          Move.start.injEq] at member
        rcases member with rfl | rfl <;> trivial
  exact concluded_turns ChatConfig.default (fun _ => ⟨8, 1000⟩)
    (fun _ _ => false) (fun _ => false) (fun _ => 256) conversation outside
    (by decide +kernel) (by decide +kernel) conversation (List.prefix_refl _)

/-- A turn whose assembly fails. -/
def unassembled : List (Move Call Conditions) :=
  [.start (.manager 0 (.send "alice" "s" "bonjour" none))] ++
    List.replicate 10 (.step 0 {}) ++
    List.replicate 2 (.step 1
      { manager := { assembled := .error (.invalidDefinition "agent") } })

/-- It is over, and has told no end. -/
theorem unassembled_untold :
    ¬ ∀ moves, (∀ move ∈ moves, Move.Admitted Outside move) →
      (∀ passage ∈ (concluding moves).trace, Concludes passage) →
      Concluded (concluding moves).shared (concluding moves).trace := by
  intro all
  have outside : ∀ move ∈ unassembled, move.Admitted Outside := by
    intro move member
    cases move with
    | step task conditions => trivial
    | start call =>
        simp only [unassembled, List.mem_append, List.mem_singleton,
          List.mem_replicate, reduceCtorEq, and_false, or_false,
          Move.start.injEq] at member
        subst member
        trivial
  have concluded := all unassembled outside (by decide +kernel)
  have turned : (courier 0 (concluding unassembled).trace).map (fun started =>
      (decide (Released (concluding unassembled).trace started.process
          started.turn.permit),
        told started.process started.turn
          (concluding unassembled).trace)) = some (true, 0) := by
    decide +kernel
  obtain ⟨started, found, same⟩ := Option.map_eq_some_iff.mp turned
  obtain ⟨released, untold⟩ := Prod.mk.inj same
  have once := concluded.once (spawned_of_courier found).1
    (of_decide_eq_true released)
  rw [untold] at once
  cases once

end MiryadCore.Chat.Bridging.Answers
