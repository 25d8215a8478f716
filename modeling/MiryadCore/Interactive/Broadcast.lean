import Mathlib.Data.List.Basic
import Mathlib.Tactic.Common
import Mathlib.Algebra.Order.Group.Nat
import Mathlib.Algebra.Order.Sub.Basic

/-!
# Broadcast channels

`Feed` is what a broadcast channel is for: each receiver has the events sent
since it was made that it has neither received nor been told that it missed.
`Broadcast` is a channel library of this kind, such as `tokio::sync::broadcast`;
`Ring` is one that keeps its last events in a bounded buffer.
-/

namespace MiryadCore

/-- `RecvError`. -/
inductive RecvError where
  | lagged (missed : ℕ)
  | closed
  deriving DecidableEq, Repr

/-- The receivers made so far, with what each has not read yet unless it was
dropped, and whether a sender is left. -/
structure Feed (event : Type) where
  made : ℕ
  unread : ℕ → Option (List event)
  sending : Bool

namespace Feed

variable {event : Type}

def new : Feed event :=
  { made := 0, unread := fun _ => none, sending := true }

/-- The new receiver is the next one. -/
def subscribe (feed : Feed event) : Feed event :=
  { feed with
    made := feed.made + 1
    unread := Function.update feed.unread feed.made (some []) }

def send (sent : event) (feed : Feed event) : Feed event :=
  { feed with unread := fun receiver =>
      (feed.unread receiver).map fun unread => unread ++ [sent] }

def dropReceiver (receiver : ℕ) (feed : Feed event) : Feed event :=
  { feed with unread := Function.update feed.unread receiver none }

def dropSender (feed : Feed event) : Feed event :=
  { feed with sending := false }

/-- The receiver has this left to read. -/
def leave (receiver : ℕ) (rest : List event) (feed : Feed event) : Feed event :=
  { feed with unread := Function.update feed.unread receiver (some rest) }

/-- What a live receiver may be given, `none` while it has to wait. -/
inductive Receives (feed : Feed event) (receiver : ℕ) :
    Option (Except RecvError event) → Feed event → Prop where
  | waits : feed.unread receiver = some [] → feed.sending = true →
      Receives feed receiver none feed
  | event {first : event} {rest : List event} :
      feed.unread receiver = some (first :: rest) →
      Receives feed receiver (some (.ok first)) (feed.leave receiver rest)
  | lagged {missed rest : List event} :
      feed.unread receiver = some (missed ++ rest) → missed ≠ [] →
      Receives feed receiver (some (.error (.lagged missed.length)))
        (feed.leave receiver rest)
  | closed : feed.unread receiver = some [] → feed.sending = false →
      Receives feed receiver (some (.error .closed)) feed

variable {feed after : Feed event} {receiver : ℕ}
  {received : Option (Except RecvError event)}

theorem Receives.sending_eq
    (receives : feed.Receives receiver received after) :
    after.sending = feed.sending := by
  cases receives with
  | waits _ _ => rfl
  | event _ => rfl
  | lagged _ _ => rfl
  | closed _ _ => rfl

theorem Receives.mem_of_ok {first : event}
    (receives : feed.Receives receiver (some (.ok first)) after) :
    ∃ left, feed.unread receiver = some left ∧ first ∈ left := by
  cases receives with
  | event unread => exact ⟨_, unread, List.mem_cons_self⟩

theorem Receives.unread_of_ne {other : ℕ}
    (receives : feed.Receives receiver received after)
    (different : other ≠ receiver) :
    after.unread other = feed.unread other := by
  cases receives with
  | waits _ _ => rfl
  | event _ => exact Function.update_of_ne different _ _
  | lagged _ _ => exact Function.update_of_ne different _ _
  | closed _ _ => rfl

theorem Receives.mem_of_unread {other : ℕ} {left : List event} {last : event}
    (receives : feed.Receives receiver received after)
    (unread : after.unread other = some left) (member : last ∈ left) :
    ∃ before, feed.unread other = some before ∧ last ∈ before := by
  by_cases same : other = receiver
  · subst same
    cases receives with
    | waits _ _ => exact ⟨left, unread, member⟩
    | closed _ _ => exact ⟨left, unread, member⟩
    | event found =>
        simp only [leave, Function.update_self, Option.some.injEq] at unread
        subst unread
        exact ⟨_, found, List.mem_cons_of_mem _ member⟩
    | lagged found _ =>
        simp only [leave, Function.update_self, Option.some.injEq] at unread
        subst unread
        exact ⟨_, found, List.mem_append_right _ member⟩
  · rw [receives.unread_of_ne same] at unread
    exact ⟨left, unread, member⟩

end Feed

/-- A library of broadcast channels: every operation does to a channel what it
does to the feed that the channel is. -/
structure Broadcast (event : Type) where
  Channel : Type
  channel : ℕ → Channel
  subscribe : Channel → ℕ × Channel
  receiverCount : Channel → ℕ
  send : event → Channel → Channel
  recv : ℕ → Channel → Option (Except RecvError event) × Channel
  dropReceiver : ℕ → Channel → Channel
  dropSender : Channel → Channel
  feed : Channel → Feed event
  feed_channel : ∀ capacity, feed (channel capacity) = Feed.new
  subscribe_fst : ∀ channel, (subscribe channel).1 = (feed channel).made
  feed_subscribe : ∀ channel,
    feed (subscribe channel).2 = (feed channel).subscribe
  receiverCount_eq_zero : ∀ channel, receiverCount channel = 0 ↔
    ∀ receiver, (feed channel).unread receiver = none
  feed_send : ∀ sent channel, receiverCount channel ≠ 0 →
    feed (send sent channel) = (feed channel).send sent
  recv_receives : ∀ receiver channel,
    (feed channel).unread receiver ≠ none →
    (feed channel).Receives receiver (recv receiver channel).1
      (feed (recv receiver channel).2)
  feed_dropReceiver : ∀ receiver channel,
    feed (dropReceiver receiver channel) =
      (feed channel).dropReceiver receiver
  feed_dropSender : ∀ channel,
    feed (dropSender channel) = (feed channel).dropSender

/-- The reports account for the events sent, up to those left to read. -/
inductive Accounted {event : Type} :
    List event → List (Except RecvError event) → List event → Prop where
  | unread (left : List event) : Accounted left [] left
  | received {sent left : List event} {reports : List (Except RecvError event)}
      (first : event) : Accounted sent reports left →
      Accounted (first :: sent) (.ok first :: reports) left
  | lagged {sent left : List event} {reports : List (Except RecvError event)}
      (missed : List event) : missed ≠ [] → Accounted sent reports left →
      Accounted (missed ++ sent) (.error (.lagged missed.length) :: reports)
        left

namespace Accounted

variable {event : Type} {sent left rest missed : List event} {first : event}
  {reports : List (Except RecvError event)}

theorem send (accounted : Accounted sent reports left) (last : event) :
    Accounted (sent ++ [last]) reports (left ++ [last]) := by
  induction accounted with
  | unread left => exact .unread _
  | received first _ induction => exact .received first induction
  | lagged missed some _ induction =>
      rw [List.append_assoc]
      exact .lagged missed some induction

theorem receive (accounted : Accounted sent reports left)
    (same : left = first :: rest) :
    Accounted sent (reports ++ [.ok first]) rest := by
  induction accounted with
  | unread left =>
      subst same
      exact .received first (.unread rest)
  | received first _ induction => exact .received first (induction same)
  | lagged missed some _ induction => exact .lagged missed some (induction same)

theorem lag (accounted : Accounted sent reports left)
    (same : left = missed ++ rest) (some : missed ≠ []) :
    Accounted sent (reports ++ [.error (.lagged missed.length)]) rest := by
  induction accounted with
  | unread left =>
      subst same
      exact .lagged missed some (.unread rest)
  | received first _ induction => exact .received first (induction same)
  | lagged earlier nonempty _ induction =>
      exact .lagged earlier nonempty (induction same)

theorem receives {feed after : Feed event} {receiver : ℕ}
    {received : Except RecvError event} (accounted : Accounted sent reports left)
    (unread : feed.unread receiver = some left) (sending : feed.sending = true)
    (receives : feed.Receives receiver (some received) after) :
    received ≠ .error .closed ∧
      ∃ rest, after.unread receiver = some rest ∧
        Accounted sent (reports ++ [received]) rest := by
  cases receives with
  | event found =>
      rw [unread] at found
      refine ⟨nofun, _, Function.update_self _ _ _, ?_⟩
      exact accounted.receive (Option.some.inj found)
  | lagged found some =>
      rw [unread] at found
      refine ⟨nofun, _, Function.update_self _ _ _, ?_⟩
      exact accounted.lag (Option.some.inj found) some
  | closed _ gone =>
      rw [sending] at gone
      cases gone

end Accounted

/-- For each receiver what it has not read, `none` once it was dropped.  Of
these events only the last `capacity` are kept. -/
structure Ring (event : Type) where
  capacity : ℕ
  unread : List (Option (List event))
  sending : Bool

namespace Ring

variable {event : Type}

def subscribe (ring : Ring event) : ℕ × Ring event :=
  (ring.unread.length, { ring with unread := ring.unread ++ [some []] })

def receiverCount (ring : Ring event) : ℕ :=
  ring.unread.countP Option.isSome

def send (last : event) (ring : Ring event) : Ring event :=
  { ring with unread := ring.unread.map fun unread =>
      unread.map fun events => events ++ [last] }

/-- A receiver whose next event was overwritten is moved to the oldest. -/
def recv (receiver : ℕ) (ring : Ring event) :
    Option (Except RecvError event) × Ring event :=
  match ring.unread[receiver]? with
  | some (some events) =>
      if ring.capacity < events.length then
        let missed := events.length - ring.capacity
        (some (.error (.lagged missed)),
          { ring with
            unread := ring.unread.set receiver (some (events.drop missed)) })
      else
        match events with
        | first :: rest =>
            (some (.ok first),
              { ring with unread := ring.unread.set receiver (some rest) })
        | [] =>
            if ring.sending then (none, ring)
            else (some (.error .closed), ring)
  | _ => (none, ring)

def dropReceiver (receiver : ℕ) (ring : Ring event) : Ring event :=
  { ring with unread := ring.unread.set receiver none }

def feed (ring : Ring event) : Feed event :=
  { made := ring.unread.length
    unread := fun receiver => (ring.unread[receiver]?).join
    sending := ring.sending }

theorem feed_subscribe (ring : Ring event) :
    ring.subscribe.2.feed = ring.feed.subscribe := by
  unfold feed subscribe Feed.subscribe
  simp only [List.length_append, List.length_singleton, Feed.mk.injEq,
    true_and, and_true]
  funext receiver
  by_cases last : receiver = ring.unread.length
  · subst last
    simp
  · rw [Function.update_of_ne last]
    by_cases old : receiver < ring.unread.length
    · rw [List.getElem?_append_left old]
    · rw [List.getElem?_eq_none (by simp; omega),
        List.getElem?_eq_none (by omega)]

theorem receiverCount_eq_zero (ring : Ring event) :
    ring.receiverCount = 0 ↔ ∀ receiver, ring.feed.unread receiver = none := by
  unfold receiverCount feed
  rw [List.countP_eq_zero]
  constructor
  · intro gone receiver
    cases found : ring.unread[receiver]? with
    | none => simp only [found, Option.join_none]
    | some unread =>
        cases unread with
        | none => simp only [found, Option.join_some]
        | some events =>
            have absent := gone _ (List.mem_of_getElem? found)
            simp at absent
  · intro gone unread member
    obtain ⟨receiver, found⟩ := List.mem_iff_getElem?.mp member
    have absent := gone receiver
    simp only [found, Option.join_some] at absent
    simp [absent]

theorem feed_send (last : event) (ring : Ring event) :
    (ring.send last).feed = ring.feed.send last := by
  unfold feed send Feed.send
  simp only [List.length_map, Feed.mk.injEq, true_and, and_true]
  funext receiver
  rw [List.getElem?_map]
  cases ring.unread[receiver]? with
  | none => rfl
  | some unread => rfl

theorem feed_set (ring : Ring event) {receiver : ℕ}
    (made : receiver < ring.unread.length) (events : Option (List event)) :
    ({ ring with unread := ring.unread.set receiver events } : Ring event).feed =
      { ring.feed with
        unread := Function.update ring.feed.unread receiver events } := by
  unfold feed
  simp only [List.length_set, Feed.mk.injEq, true_and, and_true]
  funext other
  by_cases same : other = receiver
  · subst same
    rw [Function.update_self, List.getElem?_set_self made, Option.join_some]
  · rw [Function.update_of_ne same, List.getElem?_set_ne (Ne.symm same)]

theorem feed_dropReceiver (receiver : ℕ) (ring : Ring event) :
    (ring.dropReceiver receiver).feed = ring.feed.dropReceiver receiver := by
  by_cases made : receiver < ring.unread.length
  · exact ring.feed_set made none
  · have absent : ring.unread[receiver]? = none :=
      List.getElem?_eq_none (by omega)
    have same : ring.feed.unread receiver = none := by
      simp only [feed, absent, Option.join_none]
    unfold dropReceiver Feed.dropReceiver
    rw [List.set_eq_of_length_le (by omega), ← same, Function.update_eq_self]

theorem recv_receives (receiver : ℕ) (ring : Ring event)
    (live : ring.feed.unread receiver ≠ none) :
    ring.feed.Receives receiver (ring.recv receiver).1
      (ring.recv receiver).2.feed := by
  cases found : ring.unread[receiver]? with
  | none => simp [feed, found] at live
  | some unread =>
      have made := (List.getElem?_eq_some_iff.mp found).1
      cases unread with
      | none => simp [feed, found] at live
      | some events =>
          have holds : ring.feed.unread receiver = some events := by
            simp only [feed, found, Option.join_some]
          by_cases behind : ring.capacity < events.length
          · simp only [recv, found, if_pos behind, feed_set ring made]
            have split : events = events.take (events.length - ring.capacity) ++
                events.drop (events.length - ring.capacity) :=
              (List.take_append_drop _ _).symm
            have length :
                (events.take (events.length - ring.capacity)).length =
                  events.length - ring.capacity := by
              rw [List.length_take]
              omega
            have lagged := Feed.Receives.lagged (holds.trans (congrArg some split))
              (by intro empty; rw [empty] at length; simp at length; omega)
            rw [length] at lagged
            exact lagged
          · cases events with
            | nil =>
                cases sending : ring.sending with
                | true =>
                    simp only [recv, found, if_neg behind, sending, if_true]
                    exact .waits holds sending
                | false =>
                    simp only [recv, found, if_neg behind, sending]
                    exact .closed holds sending
            | cons first rest =>
                simp only [recv, found, if_neg behind, feed_set ring made]
                exact .event holds

/-- A buffer of at least `capacity` events, a power of two. -/
def broadcast (event : Type) : Broadcast event where
  Channel := Ring event
  channel capacity :=
    { capacity := capacity.nextPowerOfTwo, unread := [], sending := true }
  subscribe := subscribe
  receiverCount := receiverCount
  send := send
  recv := recv
  dropReceiver := dropReceiver
  dropSender ring := { ring with sending := false }
  feed := feed
  feed_channel _ := rfl
  subscribe_fst _ := rfl
  feed_subscribe := feed_subscribe
  receiverCount_eq_zero := receiverCount_eq_zero
  feed_send last ring _ := feed_send last ring
  recv_receives := recv_receives
  feed_dropReceiver := feed_dropReceiver
  feed_dropSender _ := rfl

end Ring

end MiryadCore
