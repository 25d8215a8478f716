import Mathlib.Data.List.Forall2

/-!
# Logged computations and their scripts

A logged computation reports its events even when it fails.  `Follows script`
says that the events are the script itself, cut where the computation failed:
two computations that follow one script cannot be told apart by their events
before the first failure.  `Beside same errors post` compares two computations
event by event.
-/

namespace MiryadCore

/-- A fallible computation with the list of its events. -/
structure Logged (ε event α : Type) where
  outcome : Except ε α
  log : List event

namespace Logged

variable {ε event α β : Type} {script scriptNext : List event}

/-- Success without an event. -/
def pure (value : α) : Logged ε event α :=
  { outcome := .ok value, log := [] }

/-- Failure without an event. -/
def fail (error : ε) : Logged ε event α :=
  { outcome := .error error, log := [] }

/-- One event, then the given outcome. -/
def emit (occurred : event) (outcome : Except ε α) : Logged ε event α :=
  { outcome, log := [occurred] }

/-- An outcome without an event. -/
def lift (outcome : Except ε α) : Logged ε event α :=
  { outcome, log := [] }

def mapError {ε' : Type} (f : ε → ε') (computation : Logged ε event α) :
    Logged ε' event α :=
  { outcome := computation.outcome.mapError f, log := computation.log }

def bind (first : Logged ε event α) (next : α → Logged ε event β) :
    Logged ε event β :=
  match first.outcome with
  | .error error => { outcome := .error error, log := first.log }
  | .ok value =>
      { outcome := (next value).outcome
        log := first.log ++ (next value).log }

instance : Monad (Logged ε event) where
  pure := Logged.pure
  bind := Logged.bind

theorem bind_eq (first : Logged ε event α) (next : α → Logged ε event β) :
    first >>= next = Logged.bind first next := rfl

@[simp]
theorem log_pure (value : α) :
    (Pure.pure value : Logged ε event α).log = [] := rfl

@[simp]
theorem log_lift (outcome : Except ε α) :
    (lift outcome : Logged ε event α).log = [] := rfl

@[simp]
theorem log_mapError {ε' : Type} (f : ε → ε')
    (computation : Logged ε event α) :
    (computation.mapError f).log = computation.log := rfl

/-- An event of a sequence comes from its first part, or from what follows a
success of it. -/
theorem mem_log_bind {first : Logged ε event α}
    {next : α → Logged ε event β} {occurred : event} :
    occurred ∈ (first >>= next).log ↔ occurred ∈ first.log ∨
      ∃ value, first.outcome = .ok value ∧ occurred ∈ (next value).log := by
  rw [bind_eq, Logged.bind]
  cases first.outcome with
  | error error => simp
  | ok value => simp

theorem mapError_eq_ok {ε' : Type} {f : ε → ε'} {result : Except ε α}
    {value : α} : result.mapError f = .ok value ↔ result = .ok value := by
  cases result <;> simp [Except.mapError]

/-- A sequence succeeds when its parts do. -/
theorem outcome_bind {first : Logged ε event α}
    {next : α → Logged ε event β} {value : β} :
    (first >>= next).outcome = .ok value ↔
      ∃ middle, first.outcome = .ok middle ∧
        (next middle).outcome = .ok value := by
  rw [bind_eq, Logged.bind]
  cases first.outcome with
  | error error => simp
  | ok middle => simp

/-- The events are a prefix of `script`, and all of it on success. -/
structure Follows (script : List event) (computation : Logged ε event α) :
    Prop where
  log : computation.log <+: script
  complete : ∀ value, computation.outcome = .ok value → computation.log = script

theorem follows_pure (value : α) :
    Follows [] (Pure.pure value : Logged ε event α) where
  log := List.nil_prefix
  complete := fun _ _ => rfl

theorem follows_fail (error : ε) :
    Follows script (fail error : Logged ε event α) where
  log := List.nil_prefix
  complete := fun _ returned => by cases returned

theorem follows_emit (occurred : event) (outcome : Except ε α) :
    Follows [occurred] (emit occurred outcome) where
  log := List.prefix_rfl
  complete := fun _ _ => rfl

/-- Scripts compose in sequence. -/
theorem Follows.bind {first : Logged ε event α}
    {next : α → Logged ε event β} (begins : Follows script first)
    (continues : ∀ value, first.outcome = .ok value →
      Follows scriptNext (next value)) :
    Follows (script ++ scriptNext) (first >>= next) := by
  rw [bind_eq, Logged.bind]
  cases result : first.outcome with
  | error error =>
      constructor
      · exact begins.log.trans (List.prefix_append script scriptNext)
      · intro value returned
        cases returned
  | ok value =>
      have whole := begins.complete value result
      have later := continues value result
      constructor
      · simp only [whole]
        exact (List.prefix_append_right_inj script).mpr later.log
      · intro final returned
        simp only [whole, later.complete final returned]

theorem Follows.bind_silent {first : Logged ε event α}
    {next : α → Logged ε event β} (begins : Follows script first)
    (silent : ∀ value, first.outcome = .ok value → Follows [] (next value)) :
    Follows script (first >>= next) := by
  have steps := begins.bind silent
  rwa [List.append_nil] at steps

theorem Follows.map {computation : Logged ε event α} (f : α → β)
    (follows : Follows script computation) :
    Follows script (f <$> computation) :=
  follows.bind_silent fun value _ => follows_pure (f value)

theorem Follows.comparable {one : Logged ε event α} {other : Logged ε event β}
    (first : Follows script one) (second : Follows script other) :
    one.log <+: other.log ∨ other.log <+: one.log :=
  List.prefix_or_prefix_of_prefix first.log second.log

theorem Follows.prefix_of_ok {one : Logged ε event α}
    {other : Logged ε event β} (first : Follows script one)
    (second : Follows script other) {value : α}
    (returned : one.outcome = .ok value) : other.log <+: one.log := by
  rw [first.complete value returned]
  exact second.log

/-- Two outcomes with errors that are related, or with values that are. -/
inductive Matched {ε' : Type} (errors : ε → ε' → Prop) (post : α → β → Prop) :
    Except ε α → Except ε' β → Prop
  | ok {value : α} {other : β} :
      post value other → Matched errors post (.ok value) (.ok other)
  | error {error : ε} {other : ε'} :
      errors error other → Matched errors post (.error error) (.error other)

section Matched

variable {ε' : Type} {errors : ε → ε' → Prop} {post : α → β → Prop}
  {one : Except ε α} {other : Except ε' β}

theorem Matched.bind {α' β' : Type} {final : α' → β' → Prop}
    {next : α → Except ε α'} {nextOther : β → Except ε' β'}
    (begins : Matched errors post one other)
    (continues : ∀ value value', post value value' →
      Matched errors final (next value) (nextOther value')) :
    Matched errors final (one >>= next) (other >>= nextOther) := by
  cases begins with
  | error related => exact .error related
  | ok related => exact continues _ _ related

theorem Matched.mapError {ι ι' : Type} {final : ι → ι' → Prop} {f : ε → ι}
    {f' : ε' → ι'} (matched : Matched errors post one other)
    (related : ∀ error error', errors error error' →
      final (f error) (f' error')) :
    Matched final post (one.mapError f) (other.mapError f') := by
  cases matched with
  | error same => exact .error (related _ _ same)
  | ok same => exact .ok same

end Matched

/-- The events of one are, one by one, as those of the other, and they end
alike. -/
structure Beside (same : event → event → Prop) (errors : ε → ε → Prop)
    (post : α → β → Prop) (one : Logged ε event α) (other : Logged ε event β) :
    Prop where
  log : List.Forall₂ same one.log other.log
  outcome : Matched errors post one.outcome other.outcome

section Beside

variable {same : event → event → Prop} {errors : ε → ε → Prop}
  {post : α → β → Prop}

theorem beside_pure {value : α} {other : β} (related : post value other) :
    Beside same errors post (Pure.pure value : Logged ε event α)
      (Pure.pure other) where
  log := .nil
  outcome := .ok related

theorem beside_fail {error other : ε} (related : errors error other) :
    Beside same errors post (fail error : Logged ε event α) (fail other) where
  log := .nil
  outcome := .error related

theorem beside_lift {outcome : Except ε α} {other : Except ε β}
    (matched : Matched errors post outcome other) :
    Beside same errors post (lift outcome : Logged ε event α) (lift other) where
  log := .nil
  outcome := matched

theorem beside_emit {occurred also : event} (alike : same occurred also)
    {outcome : Except ε α} {other : Except ε β}
    (matched : Matched errors post outcome other) :
    Beside same errors post (emit occurred outcome) (emit also other) where
  log := .cons alike .nil
  outcome := matched

/-- Sequences go side by side when their parts do. -/
theorem Beside.bind {α' β' : Type} {final : α' → β' → Prop}
    {one : Logged ε event α} {other : Logged ε event β}
    {next : α → Logged ε event α'} {nextOther : β → Logged ε event β'}
    (begins : Beside same errors post one other)
    (continues : ∀ value value', post value value' →
      Beside same errors final (next value) (nextOther value')) :
    Beside same errors final (one >>= next) (other >>= nextOther) := by
  obtain ⟨outcome, log⟩ := one
  obtain ⟨outcome', log'⟩ := other
  rw [bind_eq, bind_eq, Logged.bind, Logged.bind]
  cases begins.outcome with
  | error related => exact ⟨begins.log, .error related⟩
  | ok related =>
      have later := continues _ _ related
      exact ⟨List.rel_append begins.log later.log, later.outcome⟩

end Beside

end Logged

end MiryadCore
