import MiryadCore.Chat.Answers
import MiryadCore.Interactive.HubUnread

/-!
# When a message hears the end of its own turn

The answer of a message is the first end of a turn that its subscription has
left to read.  The conditions say when this is the end of its own turn; the
gate sees to the rest, as it holds off the other turns of the session while
the turn has its permit.
-/

namespace MiryadCore.Chat.Bridging.Answers

open Interactive

variable {parts : Parts} {trace : Trace parts} {passage : Passage parts}

/-- Where the task stands, which a turn and a call from elsewhere leave at its
start. -/
def standing (task : ℕ) : Trace parts → Phase
  | [] => .arrived
  | passage :: earlier =>
      if passage.task = task then
        (standing task earlier).next passage.request passage.answer
      else standing task earlier

/-- The task to which the subscription was given. -/
def owner (process : ℕ) (subscription : Subscription) : Trace parts → Option ℕ
  | [] => none
  | ⟨task, _, .manager process' _ (.hub (.subscribe _ slot)), receiver⟩ ::
      earlier =>
      if process' = process ∧
          ({ slot, receiver } : Subscription) = subscription then some task
      else owner process subscription earlier
  | _ :: earlier => owner process subscription earlier

/-- The permit with which a turn of the session holds the gate. -/
def holder (process : ℕ) (id : SessionId) : Trace parts → Option ℕ
  | [] => none
  | ⟨_, _, .manager process' _ (.tryBegin other), .ok permit⟩ :: earlier =>
      if process' = process ∧ other = id then some permit
      else holder process id earlier
  | ⟨_, _, .manager process' _ (.release other _), _⟩ :: earlier =>
      if process' = process ∧ other = id then none
      else holder process id earlier
  | _ :: earlier => holder process id earlier

/-- The slot has been given for the session. -/
def SlotOf (trace : Trace parts) (process : ℕ) (id : SessionId) (slot : ℕ) :
    Prop :=
  ∃ task before label,
    ⟨task, before, .manager process label (.hub (.slot id)), slot⟩ ∈ trace

/-- The turn has been started. -/
def Spawned (trace : Trace parts) (process : ℕ) (turn : Manager.Turn) : Prop :=
  ∃ task before label,
    ⟨task, before, .manager process label (.spawn turn), ()⟩ ∈ trace

/-- No turn has been started with the permit. -/
def Unspawned (trace : Trace parts) (process permit : ℕ) : Prop :=
  ∀ turn, Spawned trace process turn → turn.permit ≠ permit

/-- The hub of a process. -/
abbrev hubOf (bridge : Bridge parts) (process : ℕ) : Hub parts.channels :=
  (bridge.process process).manager.hub

/-- The first end of a turn that the subscription has left to read. -/
def heard (bridge : Bridge parts) (process : ℕ) (subscription : Subscription) :
    Option End :=
  ((hubOf bridge process).unread subscription).bind fun left =>
    left.findSome? ending

deriving instance DecidableEq for Manager.Turn

/-- The process whose gate gives a permit. -/
def begins : Passage parts → Option ℕ
  | ⟨_, _, .manager process _ (.tryBegin _), .ok _⟩ => some process
  | _ => none

/-- The process and the session in which a turn tells that it ends, and the
turn. -/
def ends : Passage parts → Option (ℕ × SessionId × Option Manager.Turn)
  | ⟨_, _, .manager process label (.hub (.diffuse session event)), _⟩ =>
      (ending event).map fun _ => (process, session, label)
  | _ => none

/-- The subscription that missed events, and how many. -/
def lags : Passage parts → Option (ℕ × Subscription × ℕ)
  | ⟨_, _, .manager process _ (.hub (.recv subscription)),
      .error (.lagged missed)⟩ => some (process, subscription, missed)
  | _ => none

/-- The subscription of a message that has no permit yet. -/
def Phase.listens : Phase → Option (ℕ × Subscription)
  | .listening _ process _ subscription => some (process, subscription)
  | _ => none

/-- The turn that a message has started, and its subscription. -/
def Phase.waits : Phase → Option (ℕ × Manager.Turn × Subscription)
  | .waiting _ process turn subscription => some (process, turn, subscription)
  | _ => none

/-- A message that gets a permit has no end left to read: no turn of the
session has ended since it subscribed. -/
def Fresh (before : Trace parts) (passage : Passage parts) : Prop :=
  ∀ process ∈ begins passage,
    ∀ listens ∈ (standing passage.task before).listens,
      listens.1 = process → heard passage.before process listens.2 = none

/-- The end of a turn does not reach a message whose own turn is over, unless
an end is left for it to read. -/
def Spares (before : Trace parts) (bridge : Bridge parts)
    (ended : ℕ × SessionId × Option Manager.Turn)
    (waits : ℕ × Manager.Turn × Subscription) : Prop :=
  waits.1 = ended.1 → ended.2.2 ≠ some waits.2.1 →
    Released before ended.1 waits.2.1.permit →
    (hubOf bridge ended.1).slots ended.2.1 = some waits.2.2.slot →
    (hubOf bridge ended.1).unread waits.2.2 ≠ none →
    heard bridge ended.1 waits.2.2 ≠ none

/-- A turn that ends reaches no message whose own turn is over, unless an end
is left for it to read. -/
def Undisturbed (before : Trace parts) (passage : Passage parts) : Prop :=
  ∀ ended ∈ ends passage, ∀ past ∈ before,
    ∀ waits ∈ (standing past.task before).waits,
      Spares before passage.before ended waits

/-- A message that lags has missed no end, or has none left to read. -/
def Attentive (before : Trace parts) (passage : Passage parts) : Prop :=
  ∀ lagged ∈ lags passage,
    ∀ waits ∈ (standing passage.task before).waits,
      waits.1 = lagged.1 → waits.2.2 = lagged.2.1 →
      ∀ left ∈ (hubOf passage.before lagged.1).unread lagged.2.1,
        (left.take lagged.2.2).findSome? ending = none ∨
          (left.drop lagged.2.2).findSome? ending = none

/-- The conditions on a passage, after those before it. -/
structure Timely (before : Trace parts) (passage : Passage parts) : Prop where
  fresh : Fresh before passage
  undisturbed : Undisturbed before passage
  attentive : Attentive before passage

instance decidableReleased (trace : Trace parts) (process permit : ℕ) :
    Decidable (Released trace process permit) :=
  inferInstanceAs (Decidable (∃ passage ∈ trace,
    releases passage.request = some (process, permit)))

instance decidableSpares (before : Trace parts) (bridge : Bridge parts)
    (ended : ℕ × SessionId × Option Manager.Turn)
    (waits : ℕ × Manager.Turn × Subscription) :
    Decidable (Spares before bridge ended waits) := by
  unfold Spares
  infer_instance

instance decidableTimely (before : Trace parts) (passage : Passage parts) :
    Decidable (Timely before passage) :=
  have first : Decidable (Fresh before passage) := by
    unfold Fresh
    infer_instance
  have second : Decidable (Undisturbed before passage) := by
    unfold Undisturbed
    infer_instance
  have third : Decidable (Attentive before passage) := by
    unfold Attentive
    infer_instance
  decidable_of_iff (Fresh before passage ∧ Undisturbed before passage ∧
      Attentive before passage)
    ⟨fun all => ⟨all.1, all.2.1, all.2.2⟩,
      fun all => ⟨all.fresh, all.undisturbed, all.attentive⟩⟩

theorem Handles.cons {task : ℕ} {message : MatrixMessage}
    (handles : Handles trace task message) :
    Handles (passage :: trace) task message :=
  handles.imp fun _ member => List.mem_cons_of_mem _ member

theorem SlotOf.cons {process slot : ℕ} {id : SessionId}
    (known : SlotOf trace process id slot) :
    SlotOf (passage :: trace) process id slot := by
  obtain ⟨task, before, label, member⟩ := known
  exact ⟨task, before, label, List.mem_cons_of_mem _ member⟩

theorem Spawned.cons {process : ℕ} {turn : Manager.Turn}
    (spawned : Spawned trace process turn) :
    Spawned (passage :: trace) process turn := by
  obtain ⟨task, before, label, member⟩ := spawned
  exact ⟨task, before, label, List.mem_cons_of_mem _ member⟩

theorem Ended.cons {process : ℕ} {turn : Manager.Turn} {ended : End}
    (told : Ended trace process turn ended) :
    Ended (passage :: trace) process turn ended := by
  obtain ⟨task, before, session, event, same, member⟩ := told
  exact ⟨task, before, session, event, same, List.mem_cons_of_mem _ member⟩

theorem Released.cons {process permit : ℕ}
    (released : Released trace process permit) :
    Released (passage :: trace) process permit := by
  obtain ⟨past, member, same⟩ := released
  exact ⟨past, List.mem_cons_of_mem _ member, same⟩

theorem slotOf_cases {process slot : ℕ} {id : SessionId}
    (known : SlotOf (passage :: trace) process id slot) :
    (∃ task before label, passage =
      ⟨task, before, .manager process label (.hub (.slot id)), slot⟩) ∨
      SlotOf trace process id slot := by
  obtain ⟨task, before, label, member⟩ := known
  rcases List.mem_cons.mp member with here | earlier
  · exact Or.inl ⟨task, before, label, here.symm⟩
  · exact Or.inr ⟨task, before, label, earlier⟩

theorem spawned_cases {process : ℕ} {turn : Manager.Turn}
    (spawned : Spawned (passage :: trace) process turn) :
    (∃ label, passage.request = .manager process label (.spawn turn)) ∨
      Spawned trace process turn := by
  obtain ⟨task, before, label, member⟩ := spawned
  rcases List.mem_cons.mp member with here | earlier
  · left
    subst here
    exact ⟨label, rfl⟩
  · exact Or.inr ⟨task, before, label, earlier⟩

theorem Unspawned.cons {process permit : ℕ}
    (unspawned : Unspawned trace process permit)
    (other : ∀ label turn, passage.request = .manager process label (.spawn turn) →
      turn.permit ≠ permit) :
    Unspawned (passage :: trace) process permit := by
  intro turn spawned
  rcases spawned_cases spawned with ⟨label, here⟩ | earlier
  · exact other label turn here
  · exact unspawned turn earlier

theorem holder_cons {process : ℕ} {id : SessionId}
    (notBegin : ∀ label, passage.request ≠ .manager process label (.tryBegin id))
    (notRelease : ∀ label permit,
      passage.request ≠ .manager process label (.release id permit)) :
    holder process id (passage :: trace) = holder process id trace := by
  obtain ⟨task, before, request, answer⟩ := passage
  cases request with
  | manager process' label section_ =>
      cases section_ with
      | tryBegin other =>
          cases answer with
          | error error => rfl
          | ok permit =>
              apply if_neg
              intro same
              obtain ⟨rfl, rfl⟩ := same
              exact notBegin label rfl
      | release other permit =>
          apply if_neg
          intro same
          obtain ⟨rfl, rfl⟩ := same
          exact notRelease label permit rfl
      | _ => rfl
  | _ => rfl

theorem courier_other {task : ℕ} (other : passage.task ≠ task) :
    courier task (passage :: trace) = courier task trace :=
  if_neg other

theorem courier_self (task : ℕ) (before : Bridge parts) (request : Request)
    (answer : request.Reply) :
    courier task (⟨task, before, request, answer⟩ :: trace) =
      carry request (courier task trace) :=
  if_pos rfl

theorem standing_other {task : ℕ} (other : passage.task ≠ task) :
    standing task (passage :: trace) = standing task trace :=
  if_neg other

theorem standing_self (task : ℕ) (before : Bridge parts) (request : Request)
    (answer : request.Reply) :
    standing task (⟨task, before, request, answer⟩ :: trace) =
      (standing task trace).next request answer :=
  if_pos rfl

theorem carry_of_plain {request : Request} (plain : Request.Plain request)
    (courier : Option Courier) : carry request courier = courier := by
  cases request with
  | send roomId text txnId => exact plain.elim
  | manager process label section_ =>
      cases section_ with
      | spawn turn => exact plain.elim
      | _ => rfl
  | _ => rfl

/-- The turn of a courier has been started by its task. -/
theorem spawned_of_courier {task : ℕ} {started : Courier}
    (found : courier task trace = some started) :
    Spawned trace started.process started.turn ∧
      ∃ past ∈ trace, past.task = task := by
  induction trace generalizing started with
  | nil => cases found
  | cons passage earlier induction =>
      have older : ∀ {started}, courier task earlier = some started →
          Spawned (passage :: earlier) started.process started.turn ∧
            ∃ past ∈ passage :: earlier, past.task = task := by
        intro started found
        obtain ⟨spawned, past, member, same⟩ := induction found
        exact ⟨spawned.cons, past, List.mem_cons_of_mem _ member, same⟩
      by_cases mine : passage.task = task
      · obtain ⟨task', before, request, answer⟩ := passage
        obtain rfl : task' = task := mine
        rw [courier_self] at found
        cases request with
        | send roomId text txnId =>
            obtain ⟨previous, before, rfl⟩ := Option.map_eq_some_iff.mp found
            have known := older before
            exact known
        | manager process label section_ =>
            cases section_ with
            | spawn turn =>
                cases found
                exact ⟨⟨_, _, _, List.mem_cons_self⟩, _, List.mem_cons_self,
                  rfl⟩
            | _ => exact older found
        | _ => exact older found
      · rw [courier_other mine] at found
        exact older found

end MiryadCore.Chat.Bridging.Answers
