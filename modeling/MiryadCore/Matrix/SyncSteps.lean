import MiryadCore.Matrix.LeaseSafety
import MiryadCore.Matrix.SyncStages

/-!
# The requests of a call of `run_sync`

The takes of a run, and what one request of a call does to the leases, to the
flags and to the stage of the call.
-/

namespace MiryadCore.Matrix.Sync

/-- The statement on the leases that was executed at a turn, its answer read
or not. -/
def statementOf : Turn → Option Matrix.Turn
  | ⟨task, before, .lease request, .answered answer⟩ =>
      some ⟨task, before.leases, request, answer⟩
  | ⟨task, before, .lease request, .cut _ (some answer)⟩ =>
      some ⟨task, before.leases, request, answer⟩
  | _ => none

/-- The lease that a turn takes, with its task. -/
def taken (turn : Turn) : Option (ℕ × Grant) :=
  (statementOf turn).bind fun statement =>
    (grant statement).map fun grant => (statement.task, grant)

/-- A take of the lease of synchronisation by this holder. -/
def MatrixClient.takes (client : MatrixClient) (entry : ℕ × Grant) : Bool :=
  entry.2.lease = client.leaseKey ∧ entry.2.holder = client.holderName

/-- The last take by the holder of a client, with its task. -/
def latest (client : MatrixClient) (trace : List Turn) : Option (ℕ × Grant) :=
  (trace.filterMap taken).find? client.takes

/-- The clock was read so by a task. -/
def Read (task now : ℕ) (trace : List Turn) : Prop :=
  ∃ before, (⟨task, before, .lease .nowMs, .answered now⟩ : Turn) ∈ trace ∧
    now = before.leases.nowMs

section Latest

variable {client : MatrixClient} {turn : Turn} {trace : List Turn}

theorem latest_of_none (nothing : taken turn = none) :
    latest client (turn :: trace) = latest client trace := by
  unfold latest
  rw [List.filterMap_cons_none nothing]

theorem latest_of_some {entry : ℕ × Grant} (takes : taken turn = some entry) :
    latest client (turn :: trace) =
      if client.takes entry then some entry else latest client trace := by
  unfold latest
  rw [List.filterMap_cons_some takes, List.find?_cons]
  cases client.takes entry with
  | true => rfl
  | false => rfl

theorem filterMap_taken (trace : List Turn) :
    trace.filterMap taken = (trace.filterMap statementOf).filterMap
      fun statement => (grant statement).map fun grant =>
        (statement.task, grant) := by
  rw [List.filterMap_filterMap]
  rfl

/-- The last take of a holder, among the statements. -/
theorem split_of_latest {entry : ℕ × Grant}
    (last : latest client trace = some entry) :
    client.takes entry = true ∧ ∃ later past earlier,
      trace.filterMap statementOf = later ++ past :: earlier ∧
      grant past = some entry.2 ∧
      ∀ turn ∈ later, ∀ again, grant turn = some again →
        ¬(again.lease = entry.2.lease ∧ again.holder = entry.2.holder) := by
  unfold latest at last
  rw [filterMap_taken] at last
  obtain ⟨takes, front, back, split, before⟩ :=
    List.find?_eq_some_iff_append.mp last
  refine ⟨takes, ?_⟩
  obtain ⟨later, rest, same, fronts, backs⟩ :=
    List.filterMap_eq_append_iff.mp split
  obtain ⟨skipped, past, earlier, rests, quiet, is, _⟩ :=
    List.filterMap_eq_cons_iff.mp backs
  obtain ⟨mine, took, pair⟩ := Option.map_eq_some_iff.mp is
  refine ⟨later ++ skipped, past, earlier, ?_, ?_, ?_⟩
  · rw [same, rests, List.append_assoc]
  · rw [took, ← pair]
  · intro turn member again granted alike
    rcases List.mem_append.mp member with inFront | between
    · have listed : (turn.task, again) ∈ front := by
        rw [← fronts, List.mem_filterMap]
        exact ⟨turn, inFront, by rw [granted]; rfl⟩
      have other := before _ listed
      unfold MatrixClient.takes at takes other
      simp only [decide_eq_true_eq] at takes
      simp only [Bool.not_eq_true', decide_eq_false_iff_not] at other
      exact other ⟨alike.1.trans takes.1, alike.2.trans takes.2⟩
    · have nothing := quiet turn between
      rw [granted] at nothing
      cases nothing

end Latest

section Request

variable {deployment : Deployment} {task : ℕ} {state : State}
  {request : Request} {conditions : Conditions} {trace : List Turn}

/-- The turn at which a task makes a request. -/
abbrev made (task : ℕ) (state : State) (request : Request)
    (conditions : Conditions) : Turn :=
  ⟨task, state, request, (perform conditions state request).1⟩

theorem good_wait {leases : Leases} {trace : List Matrix.Turn}
    (good : Good leases trace) (elapsed : ℕ) :
    Good { leases with clock := leases.clock + elapsed } trace := by
  refine ⟨?_, ?_, good.numbered, good.fenced, good.excludes⟩
  · intro task before now member
    exact (good.readings task before now member).trans (Nat.le_add_right _ _)
  · intro later past earlier split taken took
    rcases good.kept later past earlier split taken took with
      held | expired | shortened
    · exact .inl held
    · exact .inr (.inl (expired.trans (Nat.le_add_right _ _)))
    · exact .inr (.inr shortened)

/-- A request is answered, or is interrupted after it was served, or before
that. -/
theorem perform_cases (conditions : Conditions) (state : State)
    (request : Request) :
    perform conditions state request =
      (.answered (state.serve conditions request).1,
        (state.serve conditions request).2.wait conditions.elapsed) ∨
    request.immediate = false ∧ ∃ how,
      perform conditions state request =
        (.cut how (some (state.serve conditions request).1),
          (state.serve conditions request).2.wait conditions.elapsed) ∨
      perform conditions state request =
        (.cut how none, state.wait conditions.elapsed) := by
  cases immediate : request.immediate with
  | true =>
      left
      simp only [perform, immediate, if_true]
  | false =>
      cases interrupt : conditions.interrupt with
      | none =>
          left
          simp only [perform, immediate, interrupt, Bool.false_eq_true,
            if_false]
      | some pair =>
          right
          obtain ⟨how, served⟩ := pair
          refine ⟨rfl, how, ?_⟩
          cases served with
          | true =>
              left
              simp only [perform, immediate, interrupt, Bool.false_eq_true,
                if_false]
          | false =>
              right
              simp only [perform, immediate, interrupt, Bool.false_eq_true,
                if_false]

theorem waits_of_served
    (kept : (state.serve conditions request).2.leases = state.leases) :
    ∃ elapsed, (perform conditions state request).2.leases =
      { state.leases with clock := state.leases.clock + elapsed } := by
  rcases perform_cases conditions state request with
    answered | ⟨_, how, served | lost⟩
  · rw [answered]
    exact ⟨conditions.elapsed, by rw [← kept]; rfl⟩
  · rw [served]
    exact ⟨conditions.elapsed, by rw [← kept]; rfl⟩
  · rw [lost]
    exact ⟨conditions.elapsed, rfl⟩

/-- A request executes no statement and time passes, or executes one. -/
theorem perform_leases (task : ℕ) (conditions : Conditions) (state : State)
    (request : Request) :
    (statementOf (made task state request conditions) = none ∧
      ∃ elapsed, (perform conditions state request).2.leases =
        { state.leases with clock := state.leases.clock + elapsed }) ∨
    ∃ statement elapsed, request = .lease statement ∧
      statementOf (made task state request conditions) =
        some ⟨task, state.leases, statement,
          (exec conditions.statement state.leases statement).1⟩ ∧
      (perform conditions state request).2.leases =
        { (exec conditions.statement state.leases statement).2 with
          clock := (exec conditions.statement state.leases statement).2.clock +
            elapsed } := by
  cases request with
  | lease statement =>
      unfold made
      rcases perform_cases conditions state (.lease statement) with
        answered | ⟨_, how, served | lost⟩
      · right
        rw [answered]
        exact ⟨statement, _, rfl, rfl, rfl⟩
      · right
        rw [served]
        exact ⟨statement, _, rfl, rfl, rfl⟩
      · left
        rw [lost]
        exact ⟨rfl, _, rfl⟩
  | swap client => exact .inl ⟨rfl, waits_of_served rfl⟩
  | clear client => exact .inl ⟨rfl, waits_of_served rfl⟩
  | syncOnce client => exact .inl ⟨rfl, waits_of_served rfl⟩
  | inviteDetails client roomId => exact .inl ⟨rfl, waits_of_served rfl⟩
  | sync client => exact .inl ⟨rfl, waits_of_served rfl⟩
  | join client roomId => exact .inl ⟨rfl, waits_of_served rfl⟩
  | onMessage client message => exact .inl ⟨rfl, waits_of_served rfl⟩
  | sleep secs => exact .inl ⟨rfl, waits_of_served rfl⟩

/-- Only the slot is written apart from the leases. -/
theorem perform_started (conditions : Conditions) (state : State)
    (request : Request) :
    (∃ client, request = .swap client ∧
      (perform conditions state request).2.started =
        Function.update state.started client true) ∨
    (∃ client, request = .clear client ∧
      (perform conditions state request).2.started =
        Function.update state.started client false) ∨
    (∀ client, request ≠ .swap client) ∧ (∀ client, request ≠ .clear client) ∧
      (perform conditions state request).2.started = state.started := by
  have kept : (state.serve conditions request).2.started = state.started →
      (perform conditions state request).2.started = state.started := by
    intro same
    rcases perform_cases conditions state request with
      answered | ⟨_, how, served | lost⟩
    · rw [answered]
      exact same
    · rw [served]
      exact same
    · rw [lost]
      rfl
  cases request with
  | swap client => exact .inl ⟨client, rfl, rfl⟩
  | clear client => exact .inr (.inl ⟨client, rfl, rfl⟩)
  | lease statement => exact .inr (.inr ⟨by simp, by simp, kept rfl⟩)
  | syncOnce client => exact .inr (.inr ⟨by simp, by simp, kept rfl⟩)
  | inviteDetails client roomId =>
      exact .inr (.inr ⟨by simp, by simp, kept rfl⟩)
  | sync client => exact .inr (.inr ⟨by simp, by simp, kept rfl⟩)
  | join client roomId => exact .inr (.inr ⟨by simp, by simp, kept rfl⟩)
  | onMessage client message => exact .inr (.inr ⟨by simp, by simp, kept rfl⟩)
  | sleep secs => exact .inr (.inr ⟨by simp, by simp, kept rfl⟩)

end Request

namespace Stage

/-- The client whose slot a call has. -/
def token : Stage → Option ℕ
  | ⟨_, .begin⟩ | ⟨_, .out⟩ => none
  | ⟨client, _⟩ => some client

def held : Stage → Bool
  | ⟨_, .begin⟩ | ⟨_, .out⟩ => false
  | ⟨_, .idle held⟩ | ⟨_, .read held _⟩ | ⟨_, .placed held _⟩
  | ⟨_, .reread held _ _⟩ => held

def first : Stage → Option ℕ
  | ⟨_, .read _ now⟩ | ⟨_, .placed _ now⟩ | ⟨_, .reread _ now _⟩ => some now
  | _ => none

def second : Stage → Option ℕ
  | ⟨_, .reread _ _ latest⟩ => some latest
  | _ => none

end Stage

section Steps

variable (deployment : Deployment)

/-- What a call does while it has its slot. -/
structure Goes (stage after : Stage) (turn : Turn) : Prop where
  token : stage.token = some stage.client
  keeps : after.token = some stage.client
  client : after.client = stage.client
  swaps : ∀ client, turn.request ≠ .swap client
  clears : ∀ client, turn.request ≠ .clear client
  session : ∀ client, turn.request.session = some client →
    client = stage.client ∧ stage.held = true
  takes : ∀ entry, taken turn = some entry → entry.1 = turn.task ∧
    (deployment.client stage.client).takes entry = true
  held : after.held = true →
    (taken turn = none ∧ stage.held = true) ∨
      ∃ now grant, stage.first = some now ∧
        taken turn = some (turn.task, grant) ∧
        grant.expiration = deployment.expiration stage.client now
  first : ∀ now, after.first = some now → stage.first = some now ∨
    turn = ⟨turn.task, turn.before, .lease .nowMs, .answered now⟩
  second : ∀ latest, after.second = some latest →
    turn = ⟨turn.task, turn.before, .lease .nowMs, .answered latest⟩
  timely : ∀ key holder expiration now,
    turn.request = .lease (.update key holder expiration now) →
      stage.second = some now

variable {deployment} {client : ℕ} {held kept : Bool} {turn : Turn}

/-- Between two requests, what executes no statement on the leases. -/
theorem goes_idle (swaps : ∀ client, turn.request ≠ .swap client)
    (clears : ∀ client, turn.request ≠ .clear client)
    (leases : ∀ statement, turn.request ≠ .lease statement)
    (session : ∀ other, turn.request.session = some other →
      other = client ∧ held = true)
    (nothing : taken turn = none) (keeps : kept = true → held = true) :
    Goes deployment ⟨client, .idle held⟩ ⟨client, .idle kept⟩ turn where
  token := rfl
  keeps := rfl
  client := rfl
  swaps := swaps
  clears := clears
  session := session
  takes := by
    intro entry took
    rw [nothing] at took
    cases took
  held := fun after => .inl ⟨nothing, keeps after⟩
  first := fun _ impossible => by cases impossible
  second := fun _ impossible => by cases impossible
  timely := fun key holder expiration now update =>
    absurd update (leases _)

/-- A request under the account of the client, answered or interrupted. -/
theorem goes_session {request : Request} (session : request.session = some client)
    (task : ℕ) (state : State) (reply : request.Told) :
    Goes deployment ⟨client, .idle true⟩
      (Stage.next deployment ⟨client, .idle true⟩ request reply)
      ⟨task, state, request, reply⟩ := by
  have only : ∀ other, request.session = some other →
      other = client ∧ true = true := by
    intro other same
    rw [session] at same
    exact ⟨(Option.some.inj same).symm, rfl⟩
  cases request with
  | swap number => cases session
  | clear number => cases session
  | lease statement => cases session
  | sleep secs => cases session
  | syncOnce number =>
      cases reply <;> exact goes_idle (by simp) (by simp) (by simp) only rfl
        (fun _ => rfl)
  | inviteDetails number roomId =>
      cases reply <;> exact goes_idle (by simp) (by simp) (by simp) only rfl
        (fun _ => rfl)
  | sync number =>
      cases reply <;> exact goes_idle (by simp) (by simp) (by simp) only rfl
        (fun _ => rfl)
  | join number roomId =>
      cases reply <;> exact goes_idle (by simp) (by simp) (by simp) only rfl
        (fun _ => rfl)
  | onMessage number message =>
      cases reply <;> exact goes_idle (by simp) (by simp) (by simp) only rfl
        (fun _ => rfl)

/-- A reading of the clock, or its interruption. -/
theorem goes_reading {stage after : Stage} {reply : Reply ℕ} (task : ℕ)
    (state : State) (token : stage.token = some stage.client)
    (keeps : after.token = some stage.client)
    (same : after.client = stage.client)
    (held : after.held = true → stage.held = true)
    (first : ∀ now, after.first = some now → stage.first = some now ∨
      reply = .answered now)
    (second : ∀ latest, after.second = some latest →
      reply = .answered latest) :
    Goes deployment stage after ⟨task, state, .lease .nowMs, reply⟩ where
  token := token
  keeps := keeps
  client := same
  swaps := by simp
  clears := by simp
  session := fun _ impossible => by cases impossible
  takes := by
    intro entry took
    cases reply with
    | answered now => cases took
    | cut how unread =>
        cases unread with
        | none => cases took
        | some now => cases took
  held := by
    intro holds
    refine .inl ⟨?_, held holds⟩
    cases reply with
    | answered now => rfl
    | cut how unread =>
        cases unread with
        | none => rfl
        | some now => rfl
  first := by
    intro now is
    rcases first now is with before | read
    · exact .inl before
    · exact .inr (by rw [read])
  second := by
    intro latest is
    rw [second latest is]
  timely := fun _ _ _ _ impossible => by cases impossible

theorem of_taken_insert {task : ℕ} {state : State} {key : LeaseKey}
    {holder : String} {expiration : ℕ}
    {reply : (Request.lease (.insert key holder expiration)).Told}
    {entry : ℕ × Grant}
    (took : taken ⟨task, state, .lease (.insert key holder expiration), reply⟩ =
      some entry) :
    entry = (task, ⟨key, holder, expiration, 1⟩) := by
  have of_answer : ∀ answer : Except Users.DbErr ℕ,
      ((grant ⟨task, state.leases, .insert key holder expiration, answer⟩).map
        fun grant => (task, grant)) = some entry →
      entry = (task, ⟨key, holder, expiration, 1⟩) := by
    intro answer took
    cases answer with
    | error error => cases took
    | ok affected =>
        rw [grant_insert] at took
        split at took
        next => exact (Option.some.inj took).symm
        next => cases took
  cases reply with
  | answered answer => exact of_answer answer took
  | cut how unread =>
      cases unread with
      | none => cases took
      | some answer => exact of_answer answer took

theorem of_taken_update {task : ℕ} {state : State} {key : LeaseKey}
    {holder : String} {expiration now : ℕ}
    {reply : (Request.lease (.update key holder expiration now)).Told}
    {entry : ℕ × Grant}
    (took : taken ⟨task, state, .lease (.update key holder expiration now),
      reply⟩ = some entry) :
    ∃ generation, entry = (task, ⟨key, holder, expiration, generation⟩) := by
  have of_answer : ∀ answer : Except Users.DbErr (Option ℤ),
      ((grant ⟨task, state.leases, .update key holder expiration now,
        answer⟩).map fun grant => (task, grant)) = some entry →
      ∃ generation, entry = (task, ⟨key, holder, expiration, generation⟩) := by
    intro answer took
    cases answer with
    | error error => cases took
    | ok answer =>
        cases answer with
        | none => cases took
        | some generation => exact ⟨generation, (Option.some.inj took).symm⟩
  cases reply with
  | answered answer => exact of_answer answer took
  | cut how unread =>
      cases unread with
      | none => cases took
      | some answer => exact of_answer answer took

/-- The statement of a take, on the lease of the client. -/
theorem goes_statement {stage after : Stage} {statement : Matrix.Request}
    (is : turn.request = .lease statement)
    (token : stage.token = some stage.client)
    (keeps : after.token = some stage.client)
    (same : after.client = stage.client)
    (takes : ∀ entry, taken turn = some entry → ∃ expiration generation,
      entry = (turn.task, ⟨(deployment.client stage.client).leaseKey,
        (deployment.client stage.client).holderName, expiration, generation⟩))
    (held : after.held = true →
      (taken turn = none ∧ stage.held = true) ∨
        ∃ now grant, stage.first = some now ∧
          taken turn = some (turn.task, grant) ∧
          grant.expiration = deployment.expiration stage.client now)
    (first : ∀ now, after.first = some now → stage.first = some now)
    (second : after.second = none)
    (timely : ∀ key holder expiration now,
      statement = .update key holder expiration now →
        stage.second = some now) :
    Goes deployment stage after turn where
  token := token
  keeps := keeps
  client := same
  swaps := by simp [is]
  clears := by simp [is]
  session := by
    intro other session
    rw [is] at session
    cases session
  takes := by
    intro entry took
    obtain ⟨expiration, generation, rfl⟩ := takes entry took
    exact ⟨rfl, decide_eq_true ⟨rfl, rfl⟩⟩
  held := held
  first := fun now here => .inl (first now here)
  second := by
    intro latest here
    rw [second] at here
    cases here
  timely := by
    intro key holder expiration now update
    rw [is] at update
    exact timely key holder expiration now (Request.lease.inj update)

/-- After the insertion of a take. -/
theorem goes_insert (held : Bool) (now expiration task : ℕ) (state : State)
    (reply : (Request.lease (.insert (deployment.client client).leaseKey
      (deployment.client client).holderName expiration)).Told) :
    Goes deployment ⟨client, .read held now⟩
      (Stage.next deployment ⟨client, .read held now⟩ _ reply)
      ⟨task, state, _, reply⟩ := by
  have takes : ∀ entry, taken ⟨task, state, _, reply⟩ = some entry →
      ∃ expiration generation, entry = (task,
        ⟨(deployment.client client).leaseKey,
          (deployment.client client).holderName, expiration, generation⟩) :=
    fun entry took => ⟨_, _, of_taken_insert took⟩
  have timely : ∀ key holder expiry now', Matrix.Request.insert
      (deployment.client client).leaseKey
      (deployment.client client).holderName expiration =
        .update key holder expiry now' →
      (⟨client, .read held now⟩ : Stage).second = some now' :=
    fun _ _ _ _ impossible => by cases impossible
  cases reply with
  | cut how unread =>
      exact goes_statement rfl rfl rfl rfl takes
        (fun impossible => by cases impossible)
        (fun _ impossible => by cases impossible) rfl timely
  | answered answer =>
      cases answer with
      | error error =>
          exact goes_statement rfl rfl rfl rfl takes
            (fun impossible => by cases impossible)
            (fun _ impossible => by cases impossible) rfl timely
      | ok affected =>
          by_cases one : affected = 1
          · subst one
            exact goes_statement rfl rfl rfl rfl takes
              (fun whole => .inr ⟨now, _, rfl, rfl, of_decide_eq_true whole⟩)
              (fun _ impossible => by cases impossible) rfl timely
          · have is : Stage.next deployment ⟨client, .read held now⟩
                (.lease (.insert (deployment.client client).leaseKey
                  (deployment.client client).holderName expiration))
                (.answered (.ok affected)) = ⟨client, .placed held now⟩ :=
              if_neg one
            have nothing : taken ⟨task, state,
                .lease (.insert (deployment.client client).leaseKey
                  (deployment.client client).holderName expiration),
                .answered (.ok affected)⟩ = none := by
              show Option.map _ (if affected = 1 then _ else none) = none
              rw [if_neg one]
              rfl
            rw [is]
            exact goes_statement rfl rfl rfl rfl takes
              (fun before => .inl ⟨nothing, before⟩) (fun _ same => same) rfl
              timely

/-- After the update of a take. -/
theorem goes_update (held : Bool) (now latest expiration task : ℕ)
    (state : State)
    (reply : (Request.lease (.update (deployment.client client).leaseKey
      (deployment.client client).holderName expiration latest)).Told) :
    Goes deployment ⟨client, .reread held now latest⟩
      (Stage.next deployment ⟨client, .reread held now latest⟩ _ reply)
      ⟨task, state, _, reply⟩ := by
  have takes : ∀ entry, taken ⟨task, state, _, reply⟩ = some entry →
      ∃ expiration generation, entry = (task,
        ⟨(deployment.client client).leaseKey,
          (deployment.client client).holderName, expiration, generation⟩) := by
    intro entry took
    obtain ⟨generation, same⟩ := of_taken_update took
    exact ⟨_, generation, same⟩
  have timely : ∀ key holder expiry now', Matrix.Request.update
      (deployment.client client).leaseKey
      (deployment.client client).holderName expiration latest =
        .update key holder expiry now' →
      (⟨client, .reread held now latest⟩ : Stage).second = some now' := by
    intro key holder expiry now' same
    cases same
    rfl
  cases reply with
  | cut how unread =>
      exact goes_statement rfl rfl rfl rfl takes
        (fun impossible => by cases impossible)
        (fun _ impossible => by cases impossible) rfl timely
  | answered answer =>
      cases answer with
      | error error =>
          exact goes_statement rfl rfl rfl rfl takes
            (fun impossible => by cases impossible)
            (fun _ impossible => by cases impossible) rfl timely
      | ok answer =>
          cases answer with
          | none =>
              exact goes_statement rfl rfl rfl rfl takes
                (fun impossible => by cases impossible)
                (fun _ impossible => by cases impossible) rfl timely
          | some generation =>
              exact goes_statement rfl rfl rfl rfl takes
                (fun whole => .inr ⟨now, _, rfl, rfl, of_decide_eq_true whole⟩)
                (fun _ impossible => by cases impossible) rfl timely

/-- A call asks for its slot, leaves it, or goes on with it. -/
theorem next_cases {stage : Stage} {request : Request}
    (allowed : stage.allows deployment request) (task : ℕ) (state : State)
    (reply : request.Told) :
    (stage = ⟨stage.client, .begin⟩ ∧ request = .swap stage.client) ∨
    (stage.token = some stage.client ∧ request = .clear stage.client ∧
      stage.next deployment request reply = ⟨stage.client, .out⟩) ∨
    Goes deployment stage (stage.next deployment request reply)
      ⟨task, state, request, reply⟩ := by
  obtain ⟨client, phase⟩ := stage
  cases phase with
  | begin => exact .inl ⟨rfl, allowed⟩
  | out => exact allowed.elim
  | idle held =>
      right
      rcases allowed with rfl | rfl | ⟨secs, rfl⟩ | ⟨session, rfl⟩
      · exact .inl ⟨rfl, rfl, rfl⟩
      · right
        cases reply with
        | answered now =>
            exact goes_reading task state rfl rfl rfl (fun same => same)
              (fun _ same => .inr (by rw [Option.some.inj same]))
              (fun _ impossible => by cases impossible)
        | cut how unread =>
            exact goes_reading task state rfl rfl rfl
              (fun impossible => by cases impossible)
              (fun _ impossible => by cases impossible)
              (fun _ impossible => by cases impossible)
      · right
        cases reply with
        | answered _ =>
            exact goes_idle (by simp) (by simp) (by simp)
              (fun _ impossible => by cases impossible) rfl (fun same => same)
        | cut how unread =>
            exact goes_idle (by simp) (by simp) (by simp)
              (fun _ impossible => by cases impossible) rfl
              (fun impossible => by cases impossible)
      · exact .inr (goes_session session task state reply)
  | placed held now =>
      right
      right
      obtain rfl := allowed
      cases reply with
      | answered latest =>
          exact goes_reading task state rfl rfl rfl (fun same => same)
            (fun _ same => .inl same)
            (fun _ same => by rw [Option.some.inj same])
      | cut how unread =>
          exact goes_reading task state rfl rfl rfl
            (fun impossible => by cases impossible)
            (fun _ impossible => by cases impossible)
            (fun _ impossible => by cases impossible)
  | read held now =>
      obtain ⟨durationMs, rfl⟩ := allowed
      exact .inr (.inr (goes_insert held now _ task state reply))
  | reread held now latest =>
      obtain ⟨durationMs, rfl⟩ := allowed
      exact .inr (.inr (goes_update held now latest _ task state reply))

end Steps

end MiryadCore.Matrix.Sync
