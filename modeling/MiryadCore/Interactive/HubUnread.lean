import MiryadCore.Interactive.HubCorrectness

/-!
# What a subscription has left to read

Once its receiver is made, what is left for a subscription to read changes
only when an event is sent to its slot, when it reads, and when it is dropped.
-/

namespace MiryadCore

theorem Feed.Receives.made_eq {event : Type} {feed after : Feed event}
    {receiver : ℕ} {received : Option (Except RecvError event)}
    (receives : feed.Receives receiver received after) :
    after.made = feed.made := by
  cases receives with
  | waits _ _ => rfl
  | event _ => rfl
  | lagged _ _ => rfl
  | closed _ _ => rfl

namespace Interactive.Hub

variable {channels : Broadcast SessionEvent} {hub : Hub channels}
  {subscription : Subscription}

/-- The receiver of the subscription was made. -/
def Made (hub : Hub channels) (subscription : Subscription) : Prop :=
  subscription.slot < hub.made ∧
    subscription.receiver < (hub.feed subscription.slot).made

/-- What the subscription has left to read, unless it was dropped. -/
def unread (hub : Hub channels) (subscription : Subscription) :
    Option (List SessionEvent) :=
  (hub.feed subscription.slot).unread subscription.receiver

theorem made_release (hub : Hub channels) (slot other : ℕ) :
    ((hub.release slot).feed other).made = (hub.feed other).made := by
  unfold feed release
  dsimp only
  split
  · by_cases same : other = slot
    · subst same
      rw [Function.update_self, channels.feed_dropSender]
      rfl
    · rw [Function.update_of_ne same]
  · rfl

theorem made_removeSlot (hub : Hub channels) (id : SessionId) (other : ℕ) :
    ((hub.removeSlot id).feed other).made = (hub.feed other).made := by
  cases found : hub.slots id with
  | none => rw [removeSlot_of_none found]
  | some slot =>
      rw [removeSlot_of_some found]
      exact made_release _ slot other

theorem count_removeSlot (hub : Hub channels) (id : SessionId) :
    (hub.removeSlot id).made = hub.made := by
  cases found : hub.slots id with
  | none => rw [removeSlot_of_none found]
  | some slot =>
      rw [removeSlot_of_some found]
      rfl

theorem slot_cases (hub : Hub channels) (id : SessionId) :
    (hub.slots id = some (hub.slot id).1 ∧
      (hub.slot id).2.slots = hub.slots ∧ (hub.slot id).2.made = hub.made ∧
      (hub.slot id).2.senders = hub.senders) ∨
    ((hub.slot id).1 = hub.made ∧
      (hub.slot id).2.slots = Function.update hub.slots id (some hub.made) ∧
      (hub.slot id).2.made = hub.made + 1 ∧
      (hub.slot id).2.senders = Function.update hub.senders hub.made
        (channels.channel hub.capacity)) := by
  unfold Hub.slot
  cases found : hub.slots id with
  | some slot => exact Or.inl ⟨rfl, rfl, rfl, rfl⟩
  | none => exact Or.inr ⟨rfl, rfl, rfl, rfl⟩

/-- A section that uses another subscription, and sends nothing, leaves what
a subscription has to read. -/
theorem unread_exec (made : hub.Made subscription) {request : Section}
    (ready : hub.ready request = true)
    (notRead : request ≠ .recv subscription)
    (notDropped : request ≠ .unsubscribe subscription)
    (notSent : ∀ id event, request ≠ .diffuse id event) (now : ℕ) :
    (exec now hub request).2.unread subscription = hub.unread subscription := by
  unfold unread
  cases request with
  | register id subject => rfl
  | adopt id subject => rfl
  | now => rfl
  | removeSubject id => rfl
  | audit event =>
      have same := (record_same event hub).2.2.1
      simp only [exec, feed, same]
  | slot id =>
      rcases hub.slot_cases id with ⟨_, _, _, senders⟩ | ⟨_, _, _, senders⟩
      · simp only [exec, feed, senders]
      · have old : subscription.slot ≠ hub.made := Nat.ne_of_lt made.1
        simp only [exec, feed, senders, Function.update_of_ne old]
  | subscribe id slot =>
      simp only [exec, feed_setSender]
      split
      · rename_i same
        have old : subscription.receiver ≠
            (channels.feed (hub.senders slot)).made := by
          rw [← same]
          exact Nat.ne_of_lt made.2
        rw [channels.feed_subscribe, same]
        exact Function.update_of_ne old _ _
      · rfl
  | release slot =>
      simp only [exec, unread_release]
  | removeSlot id =>
      simp only [exec, unread_removeSlot]
  | diffuse id event => exact (notSent id event rfl).elim
  | recv other =>
      obtain ⟨sender, after, receives⟩ := exec_recv ready now
      rw [after, feed_setSender]
      split
      · rename_i same
        have different : subscription.receiver ≠ other.receiver := by
          intro receiver
          apply notRead
          obtain ⟨slot, number⟩ := subscription
          obtain ⟨otherSlot, otherNumber⟩ := other
          cases same
          cases receiver
          rfl
        rw [receives.unread_of_ne different, same]
      · rfl
  | unsubscribe other =>
      simp only [exec, feed_setSender]
      split
      · rename_i same
        have different : subscription.receiver ≠ other.receiver := by
          intro receiver
          apply notDropped
          obtain ⟨slot, number⟩ := subscription
          obtain ⟨otherSlot, otherNumber⟩ := other
          cases same
          cases receiver
          rfl
        rw [channels.feed_dropReceiver, same]
        exact Function.update_of_ne different _ _
      · rfl

/-- An event that is sent is left to read for the subscriptions to the slot. -/
theorem unread_diffuse (hub : Hub channels) (subscription : Subscription)
    (id : SessionId) (event : SessionEvent) :
    (hub.diffuse id event).unread subscription =
      if hub.slots id = some subscription.slot then
        (hub.unread subscription).map fun left => left ++ [event]
      else hub.unread subscription := by
  unfold unread
  rcases hub.diffuse_cases id event with
    ⟨absent, same⟩ | ⟨slot, found, none, same⟩ | ⟨slot, found, same, sent⟩
  · rw [same, absent, if_neg nofun]
  · rw [same, unread_removeSlot, found]
    split
    · rename_i here
      cases here
      rw [none]
      rfl
    · rfl
  · rw [same, feed_setSender, found]
    by_cases here : subscription.slot = slot
    · rw [if_pos here, sent, if_pos (congrArg some here.symm), here]
      rfl
    · rw [if_neg here, if_neg (by simpa using Ne.symm here)]

/-- A receiver that was made stays so. -/
theorem Made.exec (made : hub.Made subscription) {request : Section}
    (ready : hub.ready request = true) (now : ℕ) :
    (exec now hub request).2.Made subscription := by
  obtain ⟨slotMade, receiverMade⟩ := made
  unfold Made
  cases request with
  | register id subject => exact ⟨slotMade, receiverMade⟩
  | adopt id subject => exact ⟨slotMade, receiverMade⟩
  | now => exact ⟨slotMade, receiverMade⟩
  | removeSubject id => exact ⟨slotMade, receiverMade⟩
  | audit event =>
      obtain ⟨_, made, senders, _⟩ := record_same event hub
      simp only [Hub.exec, feed, made, senders]
      exact ⟨slotMade, receiverMade⟩
  | slot id =>
      rcases hub.slot_cases id with ⟨_, _, made, senders⟩ | ⟨_, _, made, senders⟩
      · simp only [Hub.exec, feed, made, senders]
        exact ⟨slotMade, receiverMade⟩
      · have old : subscription.slot ≠ hub.made := Nat.ne_of_lt slotMade
        simp only [Hub.exec, feed, made, senders, Function.update_of_ne old]
        exact ⟨Nat.lt_succ_of_lt slotMade, receiverMade⟩
  | subscribe id slot =>
      refine ⟨slotMade, ?_⟩
      simp only [Hub.exec, feed_setSender]
      split
      · rename_i same
        rw [channels.feed_subscribe]
        rw [same] at receiverMade
        exact Nat.lt_succ_of_lt receiverMade
      · exact receiverMade
  | release slot =>
      refine ⟨slotMade, ?_⟩
      simp only [Hub.exec, made_release]
      exact receiverMade
  | removeSlot id =>
      simp only [Hub.exec, made_removeSlot, count_removeSlot]
      exact ⟨slotMade, receiverMade⟩
  | diffuse id event =>
      rcases hub.diffuse_cases id event with
        ⟨_, same⟩ | ⟨slot, _, _, same⟩ | ⟨slot, _, same, sent⟩
      · simp only [Hub.exec, same]
        exact ⟨slotMade, receiverMade⟩
      · simp only [Hub.exec, same, made_removeSlot, count_removeSlot]
        exact ⟨slotMade, receiverMade⟩
      · simp only [Hub.exec, same]
        refine ⟨slotMade, ?_⟩
        rw [feed_setSender]
        split
        · rename_i here
          rw [sent]
          rw [here] at receiverMade
          exact receiverMade
        · exact receiverMade
  | recv other =>
      obtain ⟨sender, after, receives⟩ := exec_recv ready now
      rw [after]
      refine ⟨slotMade, ?_⟩
      rw [feed_setSender]
      split
      · rename_i same
        rw [receives.made_eq, ← same]
        exact receiverMade
      · exact receiverMade
  | unsubscribe other =>
      refine ⟨slotMade, ?_⟩
      simp only [Hub.exec, feed_setSender]
      split
      · rename_i same
        rw [channels.feed_dropReceiver]
        rw [same] at receiverMade
        exact receiverMade
      · exact receiverMade

/-- A slot of the map was there, or has just been given. -/
theorem slots_exec {request : Section} {id : SessionId} {slot now : ℕ}
    (found : (exec now hub request).2.slots id = some slot) :
    hub.slots id = some slot ∨ request = .slot id ∧ (hub.slot id).1 = slot := by
  have removed : ∀ other, (hub.removeSlot other).slots id = some slot →
      hub.slots id = some slot := by
    intro other still
    rw [slots_removeSlot] at still
    by_cases same : id = other
    · rw [same, Function.update_self] at still
      cases still
    · rw [Function.update_of_ne same] at still
      exact still
  cases request with
  | slot other =>
      rcases hub.slot_cases other with ⟨_, slots, _, _⟩ | ⟨given, slots, _, _⟩
      · simp only [exec, slots] at found
        exact Or.inl found
      · simp only [exec, slots] at found
        by_cases same : id = other
        · subst same
          rw [Function.update_self] at found
          exact Or.inr ⟨rfl, given.trans (Option.some.inj found)⟩
        · rw [Function.update_of_ne same] at found
          exact Or.inl found
  | audit event =>
      simp only [exec, (record_same event hub).1] at found
      exact Or.inl found
  | removeSlot other => exact Or.inl (removed other found)
  | diffuse other event =>
      rcases hub.diffuse_cases other event with
        ⟨_, same⟩ | ⟨_, _, _, same⟩ | ⟨_, _, same, _⟩
      · simp only [exec, same] at found
        exact Or.inl found
      · simp only [exec, same] at found
        exact Or.inl (removed other found)
      · simp only [exec, same] at found
        exact Or.inl found
  | _ => exact Or.inl found

/-- The slot of a subscription that may be read stays in the map until the
session is closed. -/
theorem slots_kept {id : SessionId} {request : Section}
    (found : hub.slots id = some subscription.slot)
    (alive : hub.unread subscription ≠ none)
    (notRemoved : request ≠ .removeSlot id) (now : ℕ) :
    (exec now hub request).2.slots id = some subscription.slot := by
  have removed : ∀ other, other ≠ id →
      (hub.removeSlot other).slots id = some subscription.slot := by
    intro other different
    rw [slots_removeSlot, Function.update_of_ne (Ne.symm different)]
    exact found
  cases request with
  | slot other =>
      rcases hub.slot_cases other with ⟨_, slots, _, _⟩ | ⟨_, slots, _, _⟩
      · simp only [exec, slots, found]
      · by_cases same : id = other
        · subst same
          simp only [exec, Hub.slot, found]
        · simp only [exec, slots, Function.update_of_ne same, found]
  | audit event => simp only [exec, (record_same event hub).1, found]
  | removeSlot other =>
      apply removed
      intro same
      exact notRemoved (same ▸ rfl)
  | diffuse other event =>
      rcases hub.diffuse_cases other event with
        ⟨_, same⟩ | ⟨slot, foundOther, none, same⟩ | ⟨_, _, same, _⟩
      · simp only [exec, same, found]
      · simp only [exec, same]
        apply removed
        intro here
        rw [here, found] at foundOther
        cases foundOther
        exact alive (none _)
      · simp only [exec, same]
        exact found
  | _ => exact found

theorem made_le (hub : Hub channels) (request : Section) (now : ℕ) :
    hub.made ≤ (exec now hub request).2.made := by
  cases request with
  | slot id =>
      rcases hub.slot_cases id with ⟨_, _, made, _⟩ | ⟨_, _, made, _⟩
      · exact made.ge
      · simp only [exec, made]
        exact Nat.le_succ _
  | audit event => exact (record_same event hub).2.1.ge
  | removeSlot id => exact (count_removeSlot hub id).ge
  | diffuse id event =>
      rcases hub.diffuse_cases id event with
        ⟨_, same⟩ | ⟨_, _, _, same⟩ | ⟨_, _, same, _⟩
      · simp only [exec, same, le_refl]
      · simp only [exec, same]
        exact (count_removeSlot hub id).ge
      · simp only [exec, same]
        exact Nat.le_refl _
  | _ => exact Nat.le_refl _

end Interactive.Hub

end MiryadCore
