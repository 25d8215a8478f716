import MiryadCore.Control.History
import MiryadCore.Matrix.Sync

/-!
# The stages of a call of `run_sync`

From its slot on, a call takes the lease by turns with what it does under its
account, which it does only after a take that succeeded.
-/

namespace MiryadCore.Matrix.Sync

/-- The client under whose account a request is made. -/
def Request.session : Request → Option ℕ
  | .syncOnce client | .inviteDetails client _ | .sync client
  | .join client _ | .onMessage client _ => some client
  | .swap _ | .clear _ | .lease _ | .sleep _ => none

/-- Before and after a call has its slot; between two requests, or in a take,
after its first reading `now` and its second reading `latest`.  `held` is
whether its last take succeeded for the whole duration. -/
inductive Phase where
  | begin
  | out
  | idle (held : Bool)
  | read (held : Bool) (now : ℕ)
  | placed (held : Bool) (now : ℕ)
  | reread (held : Bool) (now latest : ℕ)

structure Stage where
  client : ℕ
  phase : Phase

section Stages

variable (deployment : Deployment)

/-- When the lease of a client ends that it takes after a reading. -/
def Deployment.expiration (client now : ℕ) : ℕ :=
  (deployment.client client).fullTake.expiration now

def Stage.allows : Stage → Request → Prop
  | ⟨client, .begin⟩, request => request = .swap client
  | ⟨_, .out⟩, _ => False
  | ⟨client, .idle held⟩, request =>
      request = .clear client ∨ request = .lease .nowMs ∨
        (∃ secs, request = .sleep secs) ∨
          request.session = some client ∧ held = true
  | ⟨client, .read _ now⟩, request =>
      ∃ durationMs, request = .lease (.insert
        (deployment.client client).leaseKey
        (deployment.client client).holderName
        (((deployment.client client).take durationMs).expiration now))
  | ⟨_, .placed _ _⟩, request => request = .lease .nowMs
  | ⟨client, .reread _ now latest⟩, request =>
      ∃ durationMs, request = .lease (.update
        (deployment.client client).leaseKey
        (deployment.client client).holderName
        (((deployment.client client).take durationMs).expiration now) latest)

def Stage.next : Stage → (request : Request) → request.Told → Stage
  | ⟨client, .begin⟩, .swap _, .answered false => ⟨client, .idle false⟩
  | ⟨client, _⟩, .swap _, _ => ⟨client, .out⟩
  | ⟨client, _⟩, .clear _, _ => ⟨client, .out⟩
  | ⟨client, .idle held⟩, .lease .nowMs, .answered now =>
      ⟨client, .read held now⟩
  | ⟨client, .placed held now⟩, .lease .nowMs, .answered latest =>
      ⟨client, .reread held now latest⟩
  | ⟨client, .read held now⟩, .lease (.insert _ _ expiration),
      .answered (.ok affected) =>
      if affected = 1 then
        ⟨client, .idle (decide (expiration = deployment.expiration client now))⟩
      else ⟨client, .placed held now⟩
  | ⟨client, .reread _ now _⟩, .lease (.update _ _ expiration _),
      .answered (.ok (some _)) =>
      ⟨client, .idle (decide (expiration = deployment.expiration client now))⟩
  | ⟨client, .idle held⟩, _, .answered _ => ⟨client, .idle held⟩
  | ⟨client, _⟩, _, _ => ⟨client, .idle false⟩

/-- A call that ended has left its slot. -/
def slots : Protocol Call Request Request.Told Outcome Stage where
  start := fun call => ⟨call.number, .begin⟩
  allows := Stage.allows deployment
  next := Stage.next deployment
  ends := fun call stage outcome =>
    outcome = .unfinished ∨ stage = ⟨call.number, .out⟩

/-- From between two requests to between two requests. -/
def Keeps {α : Type} (client : ℕ) (held : Bool) (query : Flow α)
    (post : α → Bool → Prop) : Prop :=
  Script.Obeys (slots deployment) query ⟨client, .idle held⟩
    fun stage result => ∃ after, stage = ⟨client, .idle after⟩ ∧
      ∀ value, result = .ok value → post value after

variable {deployment} {client : ℕ} {held : Bool} {α β : Type}

theorem Keeps.pure {value : α} {post : α → Bool → Prop}
    (holds : post value held) :
    Keeps deployment client held (Pure.pure value : Flow α) post :=
  ⟨held, rfl, fun _ same => Except.ok.inj same ▸ holds⟩

theorem Keeps.fail {exit : Exit} {post : α → Bool → Prop} :
    Keeps deployment client held (Query.fail exit : Flow α) post :=
  ⟨held, rfl, fun _ impossible => by cases impossible⟩

theorem Keeps.bind {query : Flow α} {next : α → Flow β}
    {post : α → Bool → Prop} {final : β → Bool → Prop}
    (first : Keeps deployment client held query post)
    (rest : ∀ value after, post value after →
      Keeps deployment client after (next value) final) :
    Keeps deployment client held (query >>= next) final := by
  apply Query.obeys_bind
  apply first.mono
  intro stage result ended
  obtain ⟨after, rfl, holds⟩ := ended
  cases result with
  | ok value => exact rest value after (holds value rfl)
  | error exit =>
      exact ⟨after, rfl, fun _ impossible => by cases impossible⟩

/-- A request under the account, while the lease was taken. -/
theorem Keeps.ask {request : Request} (session : request.session = some client) :
    Keeps deployment client true (ask request) fun _ after => after = true := by
  refine ⟨.inr (.inr (.inr ⟨session, rfl⟩)), fun reply => ?_⟩
  cases request with
  | swap number => cases session
  | clear number => cases session
  | lease statement => cases session
  | sleep secs => cases session
  | syncOnce number =>
      cases reply with
      | answered value => exact ⟨true, rfl, fun _ _ => rfl⟩
      | cut how unread =>
          exact ⟨false, rfl, fun _ impossible => by cases impossible⟩
  | inviteDetails number roomId =>
      cases reply with
      | answered value => exact ⟨true, rfl, fun _ _ => rfl⟩
      | cut how unread =>
          exact ⟨false, rfl, fun _ impossible => by cases impossible⟩
  | sync number =>
      cases reply with
      | answered value => exact ⟨true, rfl, fun _ _ => rfl⟩
      | cut how unread =>
          exact ⟨false, rfl, fun _ impossible => by cases impossible⟩
  | join number roomId =>
      cases reply with
      | answered value => exact ⟨true, rfl, fun _ _ => rfl⟩
      | cut how unread =>
          exact ⟨false, rfl, fun _ impossible => by cases impossible⟩
  | onMessage number message =>
      cases reply with
      | answered value => exact ⟨true, rfl, fun _ _ => rfl⟩
      | cut how unread =>
          exact ⟨false, rfl, fun _ impossible => by cases impossible⟩

theorem Keeps.sleep (secs : ℕ) :
    Keeps deployment client held (Sync.ask (.sleep secs))
      fun _ after => after = held := by
  refine ⟨.inr (.inr (.inl ⟨secs, rfl⟩)), fun reply => ?_⟩
  cases reply with
  | answered value => exact ⟨held, rfl, fun _ _ => rfl⟩
  | cut how unread =>
      exact ⟨false, rfl, fun _ impossible => by cases impossible⟩

theorem Keeps.forM {items : List β} {body : β → Flow PUnit}
    (each : ∀ item ∈ items, Keeps deployment client held (body item)
      fun _ after => after = held) :
    Keeps deployment client held (items.forM body)
      fun _ after => after = held := by
  induction items with
  | nil => exact Keeps.pure rfl
  | cons item items induction =>
      show Keeps deployment client held
        (body item >>= fun _ => items.forM body) _
      apply Keeps.bind (each item List.mem_cons_self)
      intro _ after same
      subst same
      exact induction fun later member =>
        each later (List.mem_cons_of_mem _ member)

theorem next_insert (now affected : ℕ) (key : LeaseKey) (holder : String)
    (expiration : ℕ) :
    (slots deployment).next ⟨client, .read held now⟩
        (.lease (.insert key holder expiration)) (.answered (.ok affected)) =
      if affected = 1 then
        ⟨client, .idle (decide (expiration = deployment.expiration client now))⟩
      else ⟨client, .placed held now⟩ :=
  rfl

/-- A take that succeeds for the whole duration holds the lease. -/
theorem keeps_take (held : Bool) (durationMs : UInt32) :
    Keeps deployment client held
      (statements (tryTakeLeasedLock
        ((deployment.client client).take durationMs)))
      fun taken after =>
        (∃ generation, taken = .ok (some generation)) →
        durationMs = leaseMs (deployment.client client).syncTimeoutMs →
          after = true := by
  have cut : ∀ {how : Interrupt}, ∃ after,
      (⟨client, .idle false⟩ : Stage) = ⟨client, .idle after⟩ ∧
      ∀ taken : Except StoreError (Option ℕ),
        (Except.error (.interrupted how) : Except Exit _) = .ok taken →
        (∃ generation, taken = .ok (some generation)) →
        durationMs = leaseMs (deployment.client client).syncTimeoutMs →
          after = true :=
    ⟨false, rfl, fun _ impossible => by cases impossible⟩
  show Script.Obeys (slots deployment) (.call (.lease .nowMs) _) _ _
  refine ⟨.inr (.inl rfl), fun reply => ?_⟩
  cases reply with
  | cut how unread => exact cut
  | answered now =>
      show Script.Obeys (slots deployment) (.call (.lease (.insert _ _ _)) _)
        ⟨client, .read held now⟩ _
      refine ⟨⟨durationMs, rfl⟩, fun reply => ?_⟩
      cases reply with
      | cut how unread => exact cut
      | answered inserted =>
          cases inserted with
          | error error =>
              refine ⟨false, rfl, fun taken same told => ?_⟩
              obtain ⟨generation, is⟩ := told
              rw [is] at same
              cases same
          | ok affected =>
              by_cases one : affected = 1
              · subst one
                refine ⟨_, rfl, fun taken same told whole => ?_⟩
                subst whole
                exact decide_eq_true rfl
              · rw [next_insert, if_neg one]
                dsimp only [Reply.then]
                rw [if_neg one]
                refine ⟨rfl, fun reply => ?_⟩
                cases reply with
                | cut how unread => exact cut
                | answered latest =>
                    refine ⟨⟨durationMs, rfl⟩, fun reply => ?_⟩
                    cases reply with
                    | cut how unread => exact cut
                    | answered updated =>
                        cases updated with
                        | error error =>
                            refine ⟨false, rfl, fun taken same told => ?_⟩
                            obtain ⟨generation, is⟩ := told
                            rw [is] at same
                            cases same
                        | ok answer =>
                            cases answer with
                            | none =>
                                refine ⟨false, rfl, fun taken same told => ?_⟩
                                obtain ⟨generation, is⟩ := told
                                rw [is] at same
                                cases same
                            | some generation =>
                                refine ⟨_, rfl, fun taken same told whole => ?_⟩
                                subst whole
                                exact decide_eq_true rfl

theorem keeps_joinLoop (roomId : String) (delays : List ℕ) :
    Keeps deployment client true (joinLoop client roomId delays)
      fun _ after => after = true := by
  induction delays with
  | nil =>
      apply Keeps.bind (Keeps.ask rfl)
      intro _ after same
      exact Keeps.pure same
  | cons delay delays induction =>
      apply Keeps.bind (Keeps.ask rfl)
      intro joined after same
      subst same
      cases joined with
      | ok _ => exact Keeps.pure rfl
      | error error =>
          apply Keeps.bind (Keeps.sleep delay)
          intro _ after same
          subst same
          exact induction

theorem keeps_acceptInvite (roomId inviter : String) :
    Keeps deployment client true
      (acceptInvite deployment client roomId inviter)
      fun _ after => after = true := by
  unfold acceptInvite
  split
  next => exact keeps_joinLoop roomId JOIN_RETRY_DELAYS
  next => exact Keeps.pure rfl

theorem keeps_deliver (message : Option MatrixMessage) :
    Keeps deployment client true (deliver client message)
      fun _ after => after = true := by
  cases message with
  | none => exact Keeps.pure rfl
  | some message => exact Keeps.ask rfl

theorem keeps_handle (event : Event) :
    Keeps deployment client true (handle deployment client event)
      fun _ after => after = true := by
  cases event with
  | original roomId event encrypted => exact keeps_deliver _
  | redacted roomId => exact keeps_deliver none
  | undecryptable roomId eventId => exact keeps_deliver none
  | member roomId sender stateKey membership =>
      dsimp only [handle]
      split
      next => exact keeps_acceptInvite roomId sender
      next => exact Keeps.pure rfl

theorem keeps_tryLease :
    Keeps deployment client held (tryLease deployment client)
      fun taken after => taken = true → after = true := by
  apply Keeps.bind (keeps_take held _)
  intro taken after told
  cases taken with
  | error error => exact Keeps.fail
  | ok generation =>
      apply Keeps.pure
      intro some
      obtain ⟨number, rfl⟩ := Option.isSome_iff_exists.mp some
      exact told ⟨number, rfl⟩ rfl

theorem keeps_awaitLease (fuel : ℕ) :
    Keeps deployment client held (awaitLease deployment client fuel)
      fun _ after => after = true := by
  induction fuel generalizing held with
  | zero => exact Keeps.fail
  | succ fuel induction =>
      apply Keeps.bind keeps_tryLease
      intro taken after told
      cases taken with
      | true => exact Keeps.pure (told rfl)
      | false =>
          apply Keeps.bind (Keeps.sleep LEASE_RETRY)
          intro _ _ _
          exact induction

theorem keeps_initialSync :
    Keeps deployment client true (initialSync deployment client)
      fun _ after => after = true := by
  apply Keeps.bind (Keeps.ask rfl)
  intro synced after same
  subst same
  cases synced with
  | error error => exact Keeps.pure rfl
  | ok rooms =>
      apply Keeps.bind (Keeps.forM fun roomId _ => ?_)
      · intro _ after same
        exact Keeps.pure same
      · apply Keeps.bind (Keeps.ask rfl)
        intro details after same
        subst same
        cases details with
        | ok inviter => exact keeps_acceptInvite roomId inviter
        | error error => exact Keeps.pure rfl

/-- The lease is held where a request of `sync_with_callback` failed. -/
theorem keeps_syncWithCallback (fuel : ℕ) (attempt : UInt32) :
    Keeps deployment client true
      (syncWithCallback deployment client fuel attempt)
      fun ended after => (∃ error, ended.1 = .error error) → after = true := by
  induction fuel generalizing attempt with
  | zero => exact Keeps.fail
  | succ fuel induction =>
      apply Keeps.bind (Keeps.ask rfl)
      intro response after same
      subst same
      cases response with
      | error error => exact Keeps.pure fun _ => rfl
      | ok events =>
          apply Keeps.bind (Keeps.forM fun event _ => keeps_handle event)
          intro _ after same
          subst same
          apply Keeps.bind (keeps_take true _)
          intro renewed after told
          have broken : Keeps deployment client after
              (pure (.ok (), 0) : Flow (Except SdkError Unit × UInt32))
              fun ended after =>
                (∃ error, ended.1 = .error error) → after = true := by
            apply Keeps.pure
            intro impossible
            obtain ⟨_, same⟩ := impossible
            cases same
          cases renewed with
          | error error => exact broken
          | ok generation =>
              cases generation with
              | none => exact broken
              | some generation =>
                  obtain rfl := told ⟨generation, rfl⟩ rfl
                  exact induction 0

theorem keeps_backOff (attempt : UInt32) :
    Keeps deployment client held (backOff attempt)
      fun _ after => after = held := by
  apply Keeps.bind (Keeps.sleep _)
  intro _ after same
  exact Keeps.pure same

theorem keeps_syncWhileLeased (fuel : ℕ) (attempt : UInt32) :
    Keeps deployment client true (syncWhileLeased deployment client fuel attempt)
      fun _ _ => True := by
  induction fuel generalizing attempt with
  | zero => exact Keeps.fail
  | succ fuel induction =>
      apply Keeps.bind (keeps_syncWithCallback (fuel + 1) attempt)
      intro ended after told
      obtain ⟨result, attempt⟩ := ended
      cases result with
      | ok _ => exact Keeps.pure trivial
      | error error =>
          obtain rfl := told ⟨error, rfl⟩
          dsimp only
          cases classifySyncError error with
          | unknownToken => exact Keeps.fail
          | fatal error => exact Keeps.fail
          | retryable =>
              apply Keeps.bind (keeps_backOff attempt)
              intro attempt after same
              apply Keeps.bind keeps_tryLease
              intro taken after told
              cases taken with
              | false => exact Keeps.pure trivial
              | true =>
                  obtain rfl := told rfl
                  exact induction attempt

theorem keeps_driveLoop (fuel : ℕ) (attempt : UInt32) :
    Keeps deployment client held (driveLoop deployment client fuel attempt)
      fun _ _ => True := by
  induction fuel generalizing held attempt with
  | zero => exact Keeps.fail
  | succ fuel induction =>
      apply Keeps.bind (keeps_awaitLease (fuel + 1))
      intro _ after same
      subst same
      apply Keeps.bind keeps_initialSync
      intro synced after same
      subst same
      cases synced with
      | ok _ =>
          apply Keeps.bind (keeps_syncWhileLeased (fuel + 1) 0)
          intro attempt after _
          exact induction attempt
      | error error =>
          dsimp only
          cases classifySyncError error with
          | unknownToken => exact Keeps.fail
          | fatal error => exact Keeps.fail
          | retryable =>
              apply Keeps.bind (keeps_backOff attempt)
              intro attempt after _
              exact induction attempt

theorem keeps_drive (fuel : ℕ) :
    Keeps deployment client held (drive deployment client fuel)
      fun _ _ => True := by
  unfold drive
  split
  next => exact Keeps.fail
  next => exact keeps_driveLoop fuel 0

/-- A call that ends has left its slot. -/
abbrev Leaves (deployment : Deployment) (client : ℕ) (held : Bool)
    (script : Script Request Request.Told Outcome) : Prop :=
  script.Obeys (slots deployment) ⟨client, .idle held⟩
    fun stage outcome => outcome = .unfinished ∨ stage = ⟨client, .out⟩

theorem leaves_leave (outcome : Outcome) :
    Leaves deployment client held (leave client outcome) :=
  ⟨.inl rfl, fun _ => .inr rfl⟩

theorem leaves_release (result : Except MatrixError Unit) :
    Leaves deployment client held (release deployment client result) := by
  have released : Keeps deployment client held (releaseLease deployment client)
      fun _ _ => True := by
    apply Keeps.bind (keeps_take held 1)
    intro _ after _
    exact Keeps.pure trivial
  apply Script.Obeys.bind
  apply Script.Obeys.mono released
  intro stage ended rests
  obtain ⟨after, rfl, _⟩ := rests
  cases ended with
  | ok _ => exact leaves_leave _
  | error exit => exact leaves_leave _

theorem leaves_settle (ended : Except Exit Empty) :
    Leaves deployment client held (settle deployment client ended) := by
  cases ended with
  | ok never => exact never.elim
  | error exit =>
      cases exit with
      | interrupted how =>
          cases how with
          | shutdown => exact leaves_release _
          | dropped => exact leaves_leave _
      | failed error => exact leaves_release _
      | unfinished => exact .inl rfl

theorem runSync_obeys (call : Call) :
    Script.Obeys (slots deployment)
      (runSync deployment call.number call.fuel)
      ((slots deployment).start call) ((slots deployment).ends call) := by
  refine ⟨rfl, fun reply => ?_⟩
  cases reply with
  | cut how unread => exact .inr rfl
  | answered started =>
      cases started with
      | true => exact .inr rfl
      | false =>
          apply Script.Obeys.bind
          have drives : Keeps deployment call.number false
              (drive deployment call.number call.fuel) fun _ _ => True :=
            keeps_drive call.fuel
          apply Script.Obeys.mono drives
          intro stage ended rests
          obtain ⟨after, rfl, _⟩ := rests
          exact leaves_settle ended

end Stages

end MiryadCore.Matrix.Sync
