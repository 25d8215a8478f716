import Mathlib.Data.Nat.Basic
import Mathlib.Tactic.Common
import MiryadCore.Matrix.Leases

/-!
# Waiting for the approval of a device

The token endpoint is asked again and again until it has an answer.  What it
answers, how long each answer takes and how late each sleep ends are given as
sequences; instants are in nanoseconds.
-/

namespace MiryadCore.Matrix

inductive MatrixError where
  | config (text : String)
  | notLoggedIn
  | store (cause : StoreError)
  | login (text : String)
  | invalidId (text : String)
  | roomUnavailable (text : String)
  | network (message : String) (retryable : Bool)
  | sdk (text : String)
  deriving DecidableEq, Repr

namespace DeviceCode

def DEFAULT_INTERVAL_SECS : UInt64 := 5
def SLOW_DOWN_STEP_SECS : UInt64 := 5

/-- `u64::saturating_add` -/
def saturatingAdd (secs more : UInt64) : UInt64 :=
  if secs.toNat + more.toNat < 2 ^ 64 then secs + more
  else UInt64.ofNat (2 ^ 64 - 1)

/-- The interval of `login`, from the announced one. -/
def initialInterval (announced : Option UInt64) : UInt64 :=
  max (announced.getD DEFAULT_INTERVAL_SECS) 1

inductive PollOutcome (T : Type) where
  | pending
  | slowDown
  | expired
  | denied
  | done (value : T)
  | transient
  | failed (error : MatrixError)

def nanosPerSec : ℕ := 10 ^ 9

/-- `Duration::from_secs` -/
def fromSecs (secs : UInt64) : ℕ :=
  secs.toNat * nanosPerSec

/-- `Duration::as_secs` -/
def asSecs (duration : ℕ) : ℕ :=
  duration / nanosPerSec

/-- What the polls answer and the time that they take; a sleep lasts at least
what was asked. -/
structure World (T : Type) where
  outcome : ℕ → PollOutcome T
  elapsed : ℕ → ℕ
  late : ℕ → ℕ

/-- What the loop does, with the instants at which it begins and ends. -/
inductive Event (T : Type) where
  | poll (start finish : ℕ) (outcome : PollOutcome T)
  | sleep (start : ℕ) (secs : UInt64) (finish : ℕ)

/-- The events of a loop, and its result unless the fuel was not enough. -/
structure Waited (T : Type) where
  log : List (Event T)
  result : Option (Except MatrixError T)

variable {T : Type}

def Waited.prepend (events : List (Event T)) (waited : Waited T) : Waited T :=
  { waited with log := events ++ waited.log }

/-- The `match` on an outcome: what is returned, or the next interval. -/
def judge (intervalSecs : UInt64) :
    PollOutcome T → Except (Except MatrixError T) UInt64
  | .done value => .error (.ok value)
  | .pending | .transient => .ok intervalSecs
  | .slowDown => .ok (saturatingAdd intervalSecs SLOW_DOWN_STEP_SECS)
  | .expired => .error (.error (.login "code expiré"))
  | .denied => .error (.error (.login "refusé"))
  | .failed error => .error (.error error)

/-- The `loop` of `poll_until_done`, from the poll of an index on. -/
def pollLoop (world : World T) (started budget : ℕ) :
    ℕ → UInt64 → ℕ → ℕ → Waited T
  | 0, _, _, _ => { log := [], result := none }
  | fuel + 1, intervalSecs, index, clock =>
      let polled := clock + world.elapsed index
      let poll : Event T := .poll clock polled (world.outcome index)
      match judge intervalSecs (world.outcome index) with
      | .error result => { log := [poll], result := some result }
      | .ok intervalSecs =>
          let remaining := asSecs (budget - (polled - started))
          if remaining < intervalSecs.toNat then
            { log := [poll]
              result := some (.error (.login "code expiré")) }
          else
            let woken := polled + fromSecs intervalSecs + world.late index
            (pollLoop world started budget fuel intervalSecs (index + 1)
              woken).prepend [poll, .sleep polled intervalSecs woken]

def pollUntilDone (world : World T) (started : ℕ)
    (expiresInSecs intervalSecs : UInt64) (fuel : ℕ) : Waited T :=
  pollLoop world started (fromSecs expiresInSecs) fuel intervalSecs 0 started

theorem toNat_saturatingAdd (secs more : UInt64) :
    (saturatingAdd secs more).toNat =
      min (secs.toNat + more.toNat) (2 ^ 64 - 1) := by
  unfold saturatingAdd
  split
  next fits =>
    rw [UInt64.toNat_add, Nat.mod_eq_of_lt fits]
    omega
  next large =>
    have most : (UInt64.ofNat (2 ^ 64 - 1)).toNat = 2 ^ 64 - 1 := rfl
    rw [most]
    omega

theorem initialInterval_pos (announced : Option UInt64) :
    1 ≤ (initialInterval announced).toNat := by
  unfold initialInterval
  generalize announced.getD DEFAULT_INTERVAL_SECS = secs
  show 1 ≤ (if secs ≤ 1 then 1 else secs : UInt64).toNat
  split
  next _ => exact le_refl _
  next large =>
    rw [UInt64.le_iff_toNat_le] at large
    exact Nat.le_of_lt (Nat.not_le.mp large)

theorem judge_eq_ok {intervalSecs next : UInt64} {outcome : PollOutcome T}
    (goes : judge intervalSecs outcome = .ok next) :
    (next = intervalSecs ∧ outcome ≠ .slowDown) ∨
      (next = saturatingAdd intervalSecs SLOW_DOWN_STEP_SECS ∧
        outcome = .slowDown) := by
  cases outcome with
  | pending =>
      cases goes
      exact Or.inl ⟨rfl, nofun⟩
  | transient =>
      cases goes
      exact Or.inl ⟨rfl, nofun⟩
  | slowDown =>
      cases goes
      exact Or.inr ⟨rfl, rfl⟩
  | expired => cases goes
  | denied => cases goes
  | done value => cases goes
  | failed error => cases goes

theorem judge_pos {intervalSecs next : UInt64} {outcome : PollOutcome T}
    (positive : 1 ≤ intervalSecs.toNat)
    (goes : judge intervalSecs outcome = .ok next) : 1 ≤ next.toNat := by
  rcases judge_eq_ok goes with ⟨rfl, _⟩ | ⟨rfl, _⟩
  · exact positive
  · rw [toNat_saturatingAdd]
    omega

/-- The interval after some `slow_down`, in seconds. -/
def lengthened (intervalSecs : UInt64) (slowDowns : ℕ) : ℕ :=
  min (intervalSecs.toNat + SLOW_DOWN_STEP_SECS.toNat * slowDowns) (2 ^ 64 - 1)

def Event.isPoll : Event T → Bool
  | .poll _ _ _ => true
  | .sleep _ _ _ => false

def Event.isSlowDown : Event T → Bool
  | .poll _ _ .slowDown => true
  | _ => false

/-- The interval in force after these events, in seconds. -/
def currentInterval (intervalSecs : UInt64) (events : List (Event T)) : ℕ :=
  lengthened intervalSecs (events.countP Event.isSlowDown)

theorem currentInterval_poll {intervalSecs next : UInt64}
    {outcome : PollOutcome T} (goes : judge intervalSecs outcome = .ok next)
    (start finish : ℕ) (events : List (Event T)) :
    currentInterval intervalSecs (.poll start finish outcome :: events) =
      currentInterval next events := by
  have steps : SLOW_DOWN_STEP_SECS.toNat = 5 := rfl
  rcases judge_eq_ok goes with ⟨rfl, other⟩ | ⟨rfl, rfl⟩
  · have uncounted : (Event.poll start finish outcome).isSlowDown = false := by
      cases outcome with
      | slowDown => exact absurd rfl other
      | _ => rfl
    rw [currentInterval, List.countP_cons_of_neg (by rw [uncounted]; nofun)]
    rfl
  · unfold currentInterval
    rw [List.countP_cons_of_pos rfl]
    unfold lengthened
    rw [toNat_saturatingAdd, steps]
    omega

section Run

variable {world : World T} {started : ℕ} {budget : ℕ} {fuel index clock : ℕ}
  {intervalSecs : UInt64}

/-- The first poll ends the loop, or a sleep and further polls follow it. -/
theorem pollLoop_cases (world : World T) (started budget fuel : ℕ)
    (intervalSecs : UInt64) (index clock : ℕ) :
    (∃ result, pollLoop world started budget (fuel + 1) intervalSecs index
        clock =
          { log := [.poll clock (clock + world.elapsed index)
              (world.outcome index)]
            result := some result } ∧
      ∀ value, result = .ok value → world.outcome index = .done value) ∨
    ∃ next, judge intervalSecs (world.outcome index) = .ok next ∧
      next.toNat ≤
        asSecs (budget - (clock + world.elapsed index - started)) ∧
      pollLoop world started budget (fuel + 1) intervalSecs index clock =
        (pollLoop world started budget fuel next (index + 1)
          (clock + world.elapsed index + fromSecs next +
            world.late index)).prepend
          [.poll clock (clock + world.elapsed index) (world.outcome index),
            .sleep (clock + world.elapsed index) next
              (clock + world.elapsed index + fromSecs next +
                world.late index)] := by
  cases judged : judge intervalSecs (world.outcome index) with
  | error result =>
      left
      refine ⟨result, ?_, ?_⟩
      · simp only [pollLoop, judged]
      · intro value same
        subst same
        cases outcome : world.outcome index with
        | done other =>
            rw [outcome] at judged
            cases judged
            rfl
        | _ =>
            rw [outcome] at judged
            cases judged
  | ok next =>
      by_cases late : asSecs
          (budget - (clock + world.elapsed index - started)) < next.toNat
      · left
        refine ⟨.error (.login "code expiré"), ?_, nofun⟩
        simp only [pollLoop, judged, if_pos late]
      · right
        refine ⟨next, rfl, Nat.not_lt.mp late, ?_⟩
        simp only [pollLoop, judged, if_neg late]

theorem sleep_within {polled : ℕ} {next : UInt64}
    (positive : 1 ≤ next.toNat) (after : started ≤ polled)
    (enough : next.toNat ≤ asSecs (budget - (polled - started))) :
    polled + fromSecs next ≤ started + budget := by
  have whole : next.toNat * nanosPerSec ≤ budget - (polled - started) :=
    (Nat.le_div_iff_mul_le (by decide)).mp enough
  have some : 1 * nanosPerSec ≤ next.toNat * nanosPerSec :=
    Nat.mul_le_mul_right _ positive
  have unit : nanosPerSec = 10 ^ 9 := rfl
  unfold fromSecs
  omega

theorem second_le_fromSecs {next : UInt64} (positive : 1 ≤ next.toNat) :
    nanosPerSec ≤ fromSecs next := by
  have whole : 1 * nanosPerSec ≤ next.toNat * nanosPerSec :=
    Nat.mul_le_mul_right _ positive
  rw [Nat.one_mul] at whole
  exact whole

/-- The loop returns, after as many polls as there are seconds left, and one. -/
theorem pollLoop_ends {expires : ℕ} (positive : 1 ≤ intervalSecs.toNat)
    (gone : started + index * nanosPerSec ≤ clock)
    (inside : index ≤ expires) (enough : expires < fuel + index) :
    ∃ result, (pollLoop world started (expires * nanosPerSec) fuel intervalSecs
        index clock).result = some result ∧
      (pollLoop world started (expires * nanosPerSec) fuel intervalSecs
        index clock).log.countP Event.isPoll ≤ expires + 1 - index := by
  induction fuel generalizing intervalSecs index clock with
  | zero => omega
  | succ fuel induction =>
      rcases pollLoop_cases world started (expires * nanosPerSec) fuel
        intervalSecs index clock with
        ⟨result, ends, _⟩ | ⟨next, goes, sleeps, continues⟩
      · rw [ends]
        refine ⟨result, rfl, ?_⟩
        show 1 ≤ expires + 1 - index
        omega
      · have least := judge_pos positive goes
        have within := sleep_within least
          (by omega : started ≤ clock + world.elapsed index) sleeps
        have second := second_le_fromSecs least
        have unit : nanosPerSec = 10 ^ 9 := rfl
        have begun : started + (index + 1) * nanosPerSec ≤
            clock + world.elapsed index + fromSecs next + world.late index := by
          rw [Nat.add_mul]
          omega
        have left : index + 1 ≤ expires := by
          by_contra none
          have equal : index = expires := by omega
          subst equal
          omega
        obtain ⟨result, returns, polls⟩ :=
          induction least begun left (by omega)
        rw [continues]
        refine ⟨result, returns, ?_⟩
        simp only [Waited.prepend, List.countP_append]
        have one : [Event.poll clock (clock + world.elapsed index)
              (world.outcome index),
            .sleep (clock + world.elapsed index) next
              (clock + world.elapsed index + fromSecs next +
                world.late index)].countP Event.isPoll = 1 := rfl
        rw [one]
        omega

theorem pollLoop_mono {result : Except MatrixError T}
    (returns : (pollLoop world started budget fuel intervalSecs index
      clock).result = some result) (more : ℕ) :
    pollLoop world started budget (fuel + more) intervalSecs index clock =
      pollLoop world started budget fuel intervalSecs index clock := by
  induction fuel generalizing intervalSecs index clock with
  | zero => cases returns
  | succ fuel induction =>
      rw [Nat.succ_add]
      unfold pollLoop at returns ⊢
      dsimp only at returns ⊢
      cases judged : judge intervalSecs (world.outcome index) with
      | error result => rfl
      | ok next =>
          rw [judged] at returns
          dsimp only at returns ⊢
          split
          next _ => rfl
          next enough =>
            rw [if_neg enough] at returns
            rw [induction returns]

theorem pollLoop_value {value : T}
    (returns : (pollLoop world started budget fuel intervalSecs index
      clock).result = some (.ok value)) :
    ∃ start finish, (pollLoop world started budget fuel intervalSecs index
      clock).log.getLast? = some (.poll start finish (.done value)) := by
  induction fuel generalizing intervalSecs index clock with
  | zero => cases returns
  | succ fuel induction =>
      rcases pollLoop_cases world started budget fuel intervalSecs index clock
        with ⟨result, ends, answered⟩ | ⟨next, _, _, continues⟩
      · rw [ends] at returns ⊢
        have same := answered value (Option.some.inj returns)
        rw [same]
        exact ⟨_, _, rfl⟩
      · rw [continues] at returns ⊢
        obtain ⟨start, finish, last⟩ := induction returns
        refine ⟨start, finish, ?_⟩
        simp only [Waited.prepend, List.getLast?_append, last]
        rfl

/-- Each sleep that begins ends in time. -/
theorem pollLoop_sleeps (positive : 1 ≤ intervalSecs.toNat)
    (after : started ≤ clock) :
    ∀ event ∈ (pollLoop world started budget fuel intervalSecs index
      clock).log, ∀ start secs finish, event = .sleep start secs finish →
      start + fromSecs secs ≤ started + budget := by
  induction fuel generalizing intervalSecs index clock with
  | zero =>
      intro event member
      cases member
  | succ fuel induction =>
      rcases pollLoop_cases world started budget fuel intervalSecs index clock
        with ⟨result, ends, _⟩ | ⟨next, goes, sleeps, continues⟩
      · rw [ends]
        intro event member start secs finish same
        obtain rfl := List.mem_singleton.mp member
        cases same
      · rw [continues]
        have least := judge_pos positive goes
        intro event member start secs finish same
        rcases List.mem_append.mp member with first | later
        · simp only [List.mem_cons, List.not_mem_nil, or_false] at first
          rcases first with rfl | rfl
          · cases same
          · cases same
            exact sleep_within least (by omega) sleeps
        · exact induction least (by omega) event later start secs finish same

/-- The polls follow the clock. -/
theorem pollLoop_after :
    ∀ event ∈ (pollLoop world started budget fuel intervalSecs index
      clock).log, ∀ start finish outcome,
      event = .poll start finish outcome → clock ≤ start := by
  induction fuel generalizing intervalSecs index clock with
  | zero =>
      intro event member
      cases member
  | succ fuel induction =>
      rcases pollLoop_cases world started budget fuel intervalSecs index clock
        with ⟨result, ends, _⟩ | ⟨next, _, _, continues⟩
      · rw [ends]
        intro event member start finish outcome same
        obtain rfl := List.mem_singleton.mp member
        cases same
        exact le_refl _
      · rw [continues]
        intro event member start finish outcome same
        rcases List.mem_append.mp member with first | later
        · simp only [List.mem_cons, List.not_mem_nil, or_false] at first
          rcases first with rfl | rfl
          · cases same
            exact le_refl _
          · cases same
        · have follows := induction event later start finish outcome same
          omega

/-- Between two polls the interval then in force goes by. -/
theorem pollLoop_spaced {before after : List (Event T)} {start finish : ℕ}
    {outcome : PollOutcome T}
    (split : (pollLoop world started budget fuel intervalSecs index clock).log =
      before ++ .poll start finish outcome :: after) :
    ∀ event ∈ after, ∀ start' finish' outcome',
      event = .poll start' finish' outcome' →
      finish + currentInterval intervalSecs
        (before ++ [.poll start finish outcome]) * nanosPerSec ≤ start' := by
  induction fuel generalizing intervalSecs index clock before with
  | zero => simp [pollLoop] at split
  | succ fuel induction =>
      rcases pollLoop_cases world started budget fuel intervalSecs index clock
        with ⟨result, ends, _⟩ | ⟨next, goes, _, continues⟩
      · rw [ends] at split
        intro event member
        have short := congrArg List.length split
        have positive := List.length_pos_of_mem member
        simp only [List.length_append, List.length_cons,
          List.length_nil] at short
        omega
      · rw [continues] at split
        cases before with
        | nil =>
            obtain ⟨same, rest⟩ := List.cons.inj split
            obtain ⟨rfl, rfl, rfl⟩ := Event.poll.inj same
            intro event member start' finish' outcome' is
            rw [← rest] at member
            rcases List.mem_cons.mp member with rfl | later
            · cases is
            · have follows := pollLoop_after event later start' finish'
                outcome' is
              have interval := currentInterval_poll goes clock
                (clock + world.elapsed index) []
              have now : currentInterval next ([] : List (Event T)) =
                  next.toNat := by
                have bound := next.toNat_lt
                unfold currentInterval lengthened
                rw [List.countP_nil]
                omega
              rw [List.nil_append, interval, now]
              unfold fromSecs at follows
              omega
        | cons first before =>
            obtain ⟨rfl, later⟩ := List.cons.inj split
            cases before with
            | nil => cases (List.cons.inj later).1
            | cons second before =>
                obtain ⟨rfl, rest⟩ := List.cons.inj later
                intro event member start' finish' outcome' is
                have told := induction rest event member start' finish'
                  outcome' is
                rw [List.cons_append, currentInterval_poll goes]
                exact told

end Run

/-- What is promised of the wait for an approval. -/
structure Bounded (started : ℕ) (expiresInSecs intervalSecs : UInt64)
    (waited : Waited T) : Prop where
  ends : ∃ result, waited.result = some result
  polls : waited.log.countP Event.isPoll ≤ expiresInSecs.toNat + 1
  sleeps : ∀ {start secs finish}, .sleep start secs finish ∈ waited.log →
    start + fromSecs secs ≤ started + fromSecs expiresInSecs
  spaced : ∀ {before after start finish outcome start' finish' outcome'},
    waited.log = before ++ .poll start finish outcome :: after →
    .poll start' finish' outcome' ∈ after →
    finish + currentInterval intervalSecs
      (before ++ [.poll start finish outcome]) * nanosPerSec ≤ start'
  value : ∀ {value}, waited.result = some (.ok value) →
    ∃ start finish,
      waited.log.getLast? = some (.poll start finish (.done value))

/-- Whatever is answered, and however long it takes, the wait ends after at
most one poll for each second of the delay, and one. -/
theorem pollUntilDone_bounded (world : World T) (started : ℕ)
    (expiresInSecs : UInt64) (announced : Option UInt64) (more : ℕ) :
    Bounded started expiresInSecs (initialInterval announced)
      (pollUntilDone world started expiresInSecs (initialInterval announced)
        (expiresInSecs.toNat + 1 + more)) := by
  have positive := initialInterval_pos announced
  have begun : started + 0 * nanosPerSec ≤ started := by omega
  have enough : expiresInSecs.toNat < expiresInSecs.toNat + 1 + 0 := by omega
  obtain ⟨result, returns, polls⟩ :
      ∃ result, (pollLoop world started (fromSecs expiresInSecs)
          (expiresInSecs.toNat + 1) (initialInterval announced) 0
          started).result = some result ∧
        (pollLoop world started (fromSecs expiresInSecs)
          (expiresInSecs.toNat + 1) (initialInterval announced) 0
          started).log.countP Event.isPoll ≤ expiresInSecs.toNat + 1 - 0 :=
    pollLoop_ends positive begun (Nat.zero_le _) enough
  have same : pollUntilDone world started expiresInSecs
      (initialInterval announced) (expiresInSecs.toNat + 1 + more) =
      pollLoop world started (fromSecs expiresInSecs)
        (expiresInSecs.toNat + 1) (initialInterval announced) 0 started :=
    pollLoop_mono returns more
  constructor
  case ends =>
    rw [same]
    exact ⟨result, returns⟩
  case polls =>
    rw [same]
    exact polls
  case sleeps =>
    intro start secs finish member
    exact pollLoop_sleeps positive (le_refl started) _ member start secs
      finish rfl
  case spaced =>
    intro before after start finish outcome start' finish' outcome' split
      member
    exact pollLoop_spaced split _ member start' finish' outcome' rfl
  case value =>
    intro value returned
    exact pollLoop_value returned

end DeviceCode

end MiryadCore.Matrix
