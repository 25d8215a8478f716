import Mathlib.Data.List.Forall2
import Mathlib.Data.List.Induction
import Mathlib.Tactic.Common
import MiryadCore.Control.Script

/-!
# Calls that run beside each other on one service

Each call is a script.  One move starts a call, or lets one task make its next
request; the moves come in any order.  A protocol says which requests a task
may make at each stage of its call, whatever it is answered, and an outline
gives each stage an assertion that the moves of the other tasks keep.  The
invariant of an outline then holds in every pool that a run reaches.
-/

namespace MiryadCore

/-- The calls of a service, and how it replies to their requests. -/
structure System (call op : Type) (reply : op → Type) (env state α : Type) where
  program : call → Script op reply α
  exec : Script.Service op reply env state
  /-- A request that is not ready waits. -/
  ready : state → op → Bool
  /-- The call that a request starts beside its own. -/
  spawns : op → Option call

/-- One request of a task, with the state that it found. -/
structure Occurrence (op : Type) (reply : op → Type) (state : Type) where
  task : ℕ
  before : state
  request : op
  answer : reply request

/-- The tasks started so far, with what is left of them; the latest
occurrence comes first in the trace. -/
structure Pool (call op : Type) (reply : op → Type) (state α : Type) where
  shared : state
  tasks : List (call × Script op reply α)
  trace : List (Occurrence op reply state)

/-- A call starts, or a task makes its next request. -/
inductive Move (call env : Type) : Type where
  | start (call : call)
  | step (task : ℕ) (conditions : env)

/-- The condition of each turn of a trace on what precedes it. -/
def Throughout {τ : Type} (meets : List τ → τ → Prop) : List τ → Prop
  | [] => True
  | turn :: before => meets before turn ∧ Throughout meets before

instance decidableThroughout {τ : Type} {meets : List τ → τ → Prop}
    [decides : ∀ before turn, Decidable (meets before turn)] :
    ∀ trace, Decidable (Throughout meets trace)
  | [] => isTrue trivial
  | turn :: before =>
      have : Decidable (Throughout meets before) := decidableThroughout before
      inferInstanceAs (Decidable (meets before turn ∧ Throughout meets before))

namespace System

variable {call op : Type} {reply : op → Type} {env state α Stage : Type}

/-- The pool before any call. -/
def idle (s : state) : Pool call op reply state α :=
  { shared := s, tasks := [], trace := [] }

def next (system : System call op reply env state α)
    (pool : Pool call op reply state α) :
    Move call env → Pool call op reply state α
  | .start call =>
      { pool with tasks := pool.tasks ++ [(call, system.program call)] }
  | .step task conditions =>
      match pool.tasks[task]? with
      | some (call, .call request rest) =>
          if system.ready pool.shared request then
            let answered := system.exec conditions pool.shared request
            { shared := answered.2
              tasks := pool.tasks.set task (call, rest answered.1) ++
                ((system.spawns request).map fun call =>
                  (call, system.program call)).toList
              trace := { task, before := pool.shared, request
                         answer := answered.1 } :: pool.trace }
          else pool
      | _ => pool

def run (system : System call op reply env state α) (s : state)
    (moves : List (Move call env)) : Pool call op reply state α :=
  moves.foldl system.next (idle s)

variable {system : System call op reply env state α}
  {pool : Pool call op reply state α} {s : state}

theorem run_append (moves more : List (Move call env)) :
    system.run s (moves ++ more) = more.foldl system.next (system.run s moves) :=
  List.foldl_append

/-- A move starts a call, or lets a task make a request, or does nothing. -/
theorem next_cases (system : System call op reply env state α)
    (pool : Pool call op reply state α) (move : Move call env) :
    (∃ call, move = .start call ∧ system.next pool move =
      { pool with tasks := pool.tasks ++ [(call, system.program call)] }) ∨
    (∃ task conditions call request rest,
      move = .step task conditions ∧
      pool.tasks[task]? = some (call, .call request rest) ∧
      system.ready pool.shared request = true ∧
      system.next pool move =
        { shared := (system.exec conditions pool.shared request).2
          tasks := pool.tasks.set task
              (call, rest (system.exec conditions pool.shared request).1) ++
            ((system.spawns request).map fun call =>
              (call, system.program call)).toList
          trace :=
            { task, before := pool.shared, request
              answer := (system.exec conditions pool.shared request).1 } ::
              pool.trace }) ∨
    system.next pool move = pool := by
  cases move with
  | start call => exact .inl ⟨call, rfl, rfl⟩
  | step task conditions =>
      right
      cases found : pool.tasks[task]? with
      | none =>
          right
          simp only [next, found]
      | some entry =>
          obtain ⟨call, script⟩ := entry
          cases script with
          | done value =>
              right
              simp only [next, found]
          | call request rest =>
              by_cases ready : system.ready pool.shared request = true
              · left
                refine ⟨task, conditions, call, request, rest, rfl, found,
                  ready, ?_⟩
                simp only [next, found, ready, if_true]
              · right
                simp only [next, found, if_neg ready]

/-- A move only adds to the trace. -/
theorem throughout_of_next
    {meets : List (Occurrence op reply state) → Occurrence op reply state →
      Prop} {move : Move call env}
    (met : Throughout meets (system.next pool move).trace) :
    Throughout meets pool.trace := by
  rcases system.next_cases pool move with
    ⟨call, _, same⟩ |
    ⟨task, conditions, call, request, rest, _, found, ready, same⟩ | same
  · rw [same] at met
    exact met
  · rw [same] at met
    exact met.2
  · rw [same] at met
    exact met

theorem throughout_of_earlier
    {meets : List (Occurrence op reply state) → Occurrence op reply state →
      Prop} {earlier moves : List (Move call env)}
    (begins : earlier <+: moves)
    (met : Throughout meets (system.run s moves).trace) :
    Throughout meets (system.run s earlier).trace := by
  obtain ⟨more, same⟩ := begins
  subst same
  induction more using List.reverseRecOn with
  | nil => rwa [List.append_nil] at met
  | append_singleton more move induction =>
      rw [← List.append_assoc, run_append] at met
      exact induction (throughout_of_next met)

/-- If what holds after each occurrence says that it met a condition, then
what holds in every state that a run reaches says that they all did. -/
theorem throughout_of_reached
    {meets : List (Occurrence op reply state) → Occurrence op reply state →
      Prop}
    {holds : state → List (Occurrence op reply state) → Prop}
    (tells : ∀ task s trace request conditions, holds s trace →
      holds (system.exec conditions s request).2
        (⟨task, s, request, (system.exec conditions s request).1⟩ :: trace) →
      meets trace ⟨task, s, request, (system.exec conditions s request).1⟩)
    (moves : List (Move call env))
    (reached : ∀ earlier, earlier <+: moves →
      holds (system.run s earlier).shared (system.run s earlier).trace) :
    Throughout meets (system.run s moves).trace := by
  induction moves using List.reverseRecOn with
  | nil => trivial
  | append_singleton moves move induction =>
      have before := induction fun earlier begins =>
        reached earlier (begins.trans (List.prefix_append _ _))
      have after := reached (moves ++ [move]) (List.prefix_refl _)
      have last : system.run s (moves ++ [move]) =
          system.next (system.run s moves) move :=
        run_append moves [move]
      rw [last] at after ⊢
      rcases system.next_cases (system.run s moves) move with
        ⟨call, _, same⟩ |
        ⟨task, conditions, call, request, rest, _, found, ready, same⟩ | same
      · rw [same]
        exact before
      · rw [same] at after ⊢
        have earlier := reached moves (List.prefix_append _ _)
        exact ⟨tells _ _ _ _ _ earlier after, before⟩
      · rw [same]
        exact before

/-- What each occurrence keeps when it meets a condition, every run keeps. -/
theorem holds_of_throughout
    {meets : List (Occurrence op reply state) → Occurrence op reply state →
      Prop}
    {holds : state → List (Occurrence op reply state) → Prop}
    (begins : holds s [])
    (keeps : ∀ task s trace request conditions, holds s trace →
      meets trace ⟨task, s, request, (system.exec conditions s request).1⟩ →
      holds (system.exec conditions s request).2
        (⟨task, s, request, (system.exec conditions s request).1⟩ :: trace))
    (moves : List (Move call env))
    (met : Throughout meets (system.run s moves).trace) :
    holds (system.run s moves).shared (system.run s moves).trace := by
  induction moves using List.reverseRecOn with
  | nil => exact begins
  | append_singleton moves move induction =>
      have last : system.run s (moves ++ [move]) =
          system.next (system.run s moves) move :=
        run_append moves [move]
      rw [last] at met ⊢
      have before := induction (throughout_of_next met)
      rcases system.next_cases (system.run s moves) move with
        ⟨call, _, same⟩ |
        ⟨task, conditions, call, request, rest, _, found, ready, same⟩ | same
      · rw [same]
        exact before
      · rw [same] at met ⊢
        exact keeps _ _ _ _ _ before met.1
      · rw [same]
        exact before

/-- Where a condition on an occurrence is exactly what keeps something, it
holds throughout a run exactly when all states reached have the latter. -/
theorem reached_iff_throughout
    {meets : List (Occurrence op reply state) → Occurrence op reply state →
      Prop}
    {holds : state → List (Occurrence op reply state) → Prop}
    (begins : holds s [])
    (keeps : ∀ task s trace request conditions, holds s trace →
      meets trace ⟨task, s, request, (system.exec conditions s request).1⟩ →
      holds (system.exec conditions s request).2
        (⟨task, s, request, (system.exec conditions s request).1⟩ :: trace))
    (tells : ∀ task s trace request conditions, holds s trace →
      holds (system.exec conditions s request).2
        (⟨task, s, request, (system.exec conditions s request).1⟩ :: trace) →
      meets trace ⟨task, s, request, (system.exec conditions s request).1⟩)
    (moves : List (Move call env)) :
    (∀ earlier, earlier <+: moves →
      holds (system.run s earlier).shared (system.run s earlier).trace) ↔
    Throughout meets (system.run s moves).trace := by
  constructor
  · exact throughout_of_reached tells moves
  · intro met earlier start
    exact holds_of_throughout begins keeps earlier
      (throughout_of_earlier start met)

end System

/-- The stages of a task, the requests that it may make at each, and the
stages and values with which a call may end. -/
structure Protocol (call op : Type) (reply : op → Type) (α Stage : Type) where
  start : call → Stage
  allows : Stage → op → Prop
  next : Stage → (request : op) → reply request → Stage
  ends : call → Stage → α → Prop

variable {call op : Type} {reply : op → Type} {env state α β ε γ Stage : Type}

/-- Whatever it is answered, the script keeps to the protocol and ends at a
stage that `ends` allows for its value. -/
def Script.Obeys (protocol : Protocol call op reply γ Stage) :
    Script op reply α → Stage → (Stage → α → Prop) → Prop
  | .done value, stage, ends => ends stage value
  | .call request rest, stage, ends =>
      protocol.allows stage request ∧
        ∀ answer, (rest answer).Obeys protocol
          (protocol.next stage request answer) ends

section Obeys

variable {protocol : Protocol call op reply γ Stage} {stage : Stage}

theorem Script.Obeys.mono {script : Script op reply α}
    {ends weaker : Stage → α → Prop}
    (obeys : script.Obeys protocol stage ends)
    (weakens : ∀ stage value, ends stage value → weaker stage value) :
    script.Obeys protocol stage weaker := by
  induction script generalizing stage with
  | done value => exact weakens stage value obeys
  | call request rest induction =>
      exact ⟨obeys.1, fun answer => induction answer (obeys.2 answer)⟩

theorem Script.Obeys.bind {script : Script op reply α}
    {next : α → Script op reply β} {ends : Stage → β → Prop}
    (obeys : script.Obeys protocol stage fun stage value =>
      (next value).Obeys protocol stage ends) :
    (script.bind next).Obeys protocol stage ends := by
  induction script generalizing stage with
  | done value => exact obeys
  | call request rest induction =>
      exact ⟨obeys.1, fun answer => induction answer (obeys.2 answer)⟩

/-- Requests that a stage allows, and that leave it, are made at that stage. -/
theorem Script.Only.obeys {script : Script op reply α} {allowed : op → Prop}
    (only : script.Only allowed)
    (allows : ∀ request, allowed request → protocol.allows stage request)
    (stays : ∀ request, allowed request → ∀ answer,
      protocol.next stage request answer = stage) :
    script.Obeys protocol stage fun after _ => after = stage := by
  induction script with
  | done value => rfl
  | call request rest induction =>
      refine ⟨allows request only.1, fun answer => ?_⟩
      rw [stays request only.1 answer]
      exact induction answer (only.2 answer)

/-- The stages of the part of a service to which some requests go. -/
def Protocol.comap {op' : Type} (protocol : Protocol call op reply γ Stage)
    (request : op' → op) :
    Protocol call op' (fun r => reply (request r)) γ Stage where
  start := protocol.start
  allows stage r := protocol.allows stage (request r)
  next stage r answer := protocol.next stage (request r) answer
  ends := protocol.ends

/-- A script on a part of a service keeps to the protocol that it keeps to
there. -/
theorem Script.obeys_lift {op' : Type} {request : op' → op}
    {script : Script op' (fun r => reply (request r)) α}
    {ends : Stage → α → Prop}
    (obeys : script.Obeys (protocol.comap request) stage ends) :
    (script.lift request fun _ answer => answer).Obeys protocol stage ends := by
  induction script generalizing stage with
  | done value => exact obeys
  | call r next induction =>
      exact ⟨obeys.1, fun answer => induction answer (obeys.2 answer)⟩

/-- What follows a query is not reached when it fails. -/
theorem Query.obeys_bind {query : Query op reply ε α}
    {next : α → Query op reply ε β} {ends : Stage → Except ε β → Prop}
    (obeys : Script.Obeys protocol query stage fun stage result =>
      match result with
      | .ok value => Script.Obeys protocol (next value) stage ends
      | .error error => ends stage (.error error)) :
    Script.Obeys protocol (query >>= next : Query op reply ε β) stage ends := by
  apply Script.Obeys.bind
  apply obeys.mono
  intro stage result ends
  cases result with
  | ok value => exact ends
  | error error => exact ends

/-- From this stage the query keeps to the protocol, and ends there; its values
are such. -/
abbrev Query.Rests (protocol : Protocol call op reply γ Stage) (stage : Stage)
    (query : Query op reply ε α) (post : α → Prop) : Prop :=
  Script.Obeys protocol query stage fun after result =>
    after = stage ∧ ∀ value, result = .ok value → post value

namespace Query

variable {query : Query op reply ε α} {next : α → Query op reply ε β}
  {post : α → Prop}

/-- What follows goes on from the stage. -/
theorem Rests.then (rests : Rests protocol stage query post)
    {ends : Stage → Except ε β → Prop}
    (fails : ∀ error, ends stage (.error error))
    (rest : ∀ value, post value →
      Script.Obeys protocol (next value) stage ends) :
    Script.Obeys protocol (query >>= next : Query op reply ε β) stage ends := by
  apply obeys_bind
  apply rests.mono
  intro after result told
  obtain ⟨rfl, holds⟩ := told
  cases result with
  | ok value => exact rest value (holds value rfl)
  | error error => exact fails error

theorem Rests.bind {final : β → Prop} (rests : Rests protocol stage query post)
    (rest : ∀ value, post value → Rests protocol stage (next value) final) :
    Rests protocol stage (query >>= next) final :=
  rests.then (fun _ => ⟨rfl, fun _ same => by cases same⟩) rest

theorem Rests.pure {value : α} (holds : post value) :
    Rests protocol stage (Pure.pure value : Query op reply ε α) post :=
  ⟨rfl, fun _ same => Except.ok.inj same ▸ holds⟩

theorem Rests.fail (error : ε) :
    Rests protocol stage (Query.fail error : Query op reply ε α) post :=
  ⟨rfl, fun _ same => by cases same⟩

theorem Rests.ofExcept {result : Except ε α}
    (holds : ∀ value, result = .ok value → post value) :
    Rests protocol stage (Query.ofExcept result : Query op reply ε α) post :=
  ⟨rfl, holds⟩

theorem Only.rests {allowed : op → Prop} (only : Only allowed query)
    (allows : ∀ request, allowed request → protocol.allows stage request)
    (stays : ∀ request, allowed request → ∀ answer,
      protocol.next stage request answer = stage) :
    Rests protocol stage query fun _ => True :=
  (Script.Only.obeys only allows stays).mono fun _ _ same =>
    ⟨same, fun _ _ => trivial⟩

end Query

/-- From each of these stages the query keeps to the protocol, and ends at one
of them. -/
def Query.Stays (protocol : Protocol call op reply γ Stage)
    (stages : Stage → Prop) (query : Query op reply ε α) : Prop :=
  ∀ stage, stages stage →
    Script.Obeys protocol query stage fun stage _ => stages stage

namespace Query

variable {stages : Stage → Prop} {query : Query op reply ε α}

theorem Stays.done (result : Except ε α) :
    Stays protocol stages (ofExcept result : Query op reply ε α) :=
  fun _ inside => inside

theorem Stays.pure (value : α) :
    Stays protocol stages (Pure.pure value : Query op reply ε α) :=
  fun _ inside => inside

theorem Stays.bind {next : α → Query op reply ε β}
    (first : Stays protocol stages query)
    (rest : ∀ value, Stays protocol stages (next value)) :
    Stays protocol stages (query >>= next) := by
  intro stage inside
  apply obeys_bind
  apply (first stage inside).mono
  intro stage result after
  cases result with
  | ok value => exact rest value stage after
  | error error => exact after

/-- What follows a result goes on with its value. -/
theorem Stays.bind_done {result : Except ε α}
    {next : α → Query op reply ε β}
    (rest : ∀ value, result = .ok value → Stays protocol stages (next value)) :
    Stays protocol stages (ofExcept result >>= next : Query op reply ε β) := by
  intro stage inside
  cases result with
  | ok value => exact rest value rfl stage inside
  | error error => exact inside

/-- Requests that these stages allow, and that lead to these stages. -/
theorem Only.stays {allowed : op → Prop} (only : Only allowed query)
    (allows : ∀ stage request, stages stage → allowed request →
      protocol.allows stage request)
    (goes : ∀ stage request answer, stages stage → allowed request →
      stages (protocol.next stage request answer)) :
    Stays protocol stages query := by
  have all : ∀ (script : Script op reply (Except ε α)) stage, stages stage →
      script.Only allowed →
      script.Obeys protocol stage fun after _ => stages after := by
    intro script
    induction script with
    | done value => exact fun stage inside _ => inside
    | call request rest induction =>
        intro stage inside only
        exact ⟨allows stage request inside only.1, fun answer =>
          induction answer _ (goes stage request answer inside only.1)
            (only.2 answer)⟩
  exact fun stage inside => all query stage inside only

/-- Requests that a stage allows, and that leave it, are made at that stage. -/
theorem Within.obeys {allowed : op → Prop} {err : ε → Prop}
    (within : Within allowed err query)
    (allows : ∀ request, allowed request → protocol.allows stage request)
    (keeps : ∀ request, allowed request → ∀ answer,
      protocol.next stage request answer = stage) :
    Script.Obeys protocol query stage fun after result =>
      after = stage ∧ ∀ error, result = .error error → err error := by
  have all : ∀ script : Query op reply ε α, Within allowed err script →
      Script.Obeys protocol script stage fun after result =>
        after = stage ∧ ∀ error, result = .error error → err error := by
    intro script
    induction script with
    | done result =>
        intro ends
        refine ⟨rfl, fun error failed => ?_⟩
        subst failed
        exact ends
    | call request rest induction =>
        intro within
        refine ⟨allows request within.1, fun answer => ?_⟩
        rw [keeps request within.1 answer]
        exact induction answer (within.2 answer)
  exact all query within

theorem Stays.forM {δ : Type} {items : List δ}
    {body : δ → Query op reply ε PUnit}
    (each : ∀ item ∈ items, Stays protocol stages (body item)) :
    Stays protocol stages (items.forM body) := by
  induction items with
  | nil => exact Stays.pure PUnit.unit
  | cons item items induction =>
      show Stays protocol stages (body item >>= fun _ => items.forM body)
      apply Stays.bind (each item List.mem_cons_self)
      intro _
      exact induction fun later member =>
        each later (List.mem_cons_of_mem _ member)

theorem Stays.askWith {ε' : Type} {reply : op → Type}
    {protocol : Protocol call op (fun request => Except ε' (reply request)) γ
      Stage} {translate : ε' → ε} {request : op}
    (allowed : ∀ stage, stages stage → protocol.allows stage request)
    (goes : ∀ stage answer, stages stage →
      stages (protocol.next stage request answer)) :
    Stays protocol stages (Query.askWith translate request) :=
  fun stage inside =>
    ⟨allowed stage inside, fun answer => goes stage answer inside⟩

end Query

end Obeys

/-- A task makes a request at a stage where the outline holds. -/
structure Turn (system : System call op reply env state α)
    (protocol : Protocol call op reply α Stage)
    (inv : state → List (Occurrence op reply state) → Prop)
    (own : ℕ → Stage → state → List (Occurrence op reply state) → Prop)
    (task : ℕ) (stage : Stage) (s : state)
    (trace : List (Occurrence op reply state)) (request : op) : Prop where
  inv : inv s trace
  own : own task stage s trace
  allowed : protocol.allows stage request
  ready : system.ready s request = true

/-- An invariant with an assertion for each stage, which no request of another
task invalidates.  `admits` are the calls that may be started from outside.
At some stages a task has a token, which no other task has at the time: it is
new, or was handed over to the task by the one that started it. -/
structure Outline (system : System call op reply env state α)
    (protocol : Protocol call op reply α Stage) (admits : call → Prop)
    {τ : Type} (token : Stage → Option τ)
    (inv : state → List (Occurrence op reply state) → Prop)
    (own : ℕ → Stage → state → List (Occurrence op reply state) → Prop) :
    Prop where
  obeys : ∀ call, (system.program call).Obeys protocol (protocol.start call)
    (protocol.ends call)
  begins : ∀ call task s trace, admits call → inv s trace →
    (∀ past ∈ trace, past.task < task) →
    own task (protocol.start call) s trace
  bare : ∀ call, admits call → token (protocol.start call) = none
  keeps : ∀ {task stage s trace request},
    Turn system protocol inv own task stage s trace request → ∀ conditions,
    inv (system.exec conditions s request).2
      (⟨task, s, request, (system.exec conditions s request).1⟩ :: trace)
  reaches : ∀ {task stage s trace request},
    Turn system protocol inv own task stage s trace request → ∀ conditions,
    own task
      (protocol.next stage request (system.exec conditions s request).1)
      (system.exec conditions s request).2
      (⟨task, s, request, (system.exec conditions s request).1⟩ :: trace)
  renews : ∀ {task stage s trace request},
    Turn system protocol inv own task stage s trace request →
    ∀ conditions held, token (protocol.next stage request
      (system.exec conditions s request).1) = some held →
    token stage = some held ∨
      ∀ other otherStage, own other otherStage s trace →
        token otherStage ≠ some held
  frames : ∀ {task stage s trace request},
    Turn system protocol inv own task stage s trace request → ∀ conditions,
    ∀ other otherStage, other ≠ task → own other otherStage s trace →
      (∀ held, token stage = some held → token otherStage ≠ some held) →
      own other otherStage (system.exec conditions s request).2
        (⟨task, s, request, (system.exec conditions s request).1⟩ :: trace)
  spawned : ∀ {task stage s trace request},
    Turn system protocol inv own task stage s trace request → ∀ conditions,
    ∀ call other, system.spawns request = some call → task < other →
      (∀ past ∈ trace, past.task < other) →
      own other (protocol.start call) (system.exec conditions s request).2
        (⟨task, s, request, (system.exec conditions s request).1⟩ :: trace)
  passes : ∀ {task stage s trace request},
    Turn system protocol inv own task stage s trace request →
    ∀ conditions call held, system.spawns request = some call →
      token (protocol.start call) = some held →
      token stage = some held ∧
        token (protocol.next stage request
          (system.exec conditions s request).1) ≠ some held

/-- The outline holds of the pool: each task is at a stage of its call. -/
structure Outlined (protocol : Protocol call op reply α Stage)
    {τ : Type} (token : Stage → Option τ)
    (inv : state → List (Occurrence op reply state) → Prop)
    (own : ℕ → Stage → state → List (Occurrence op reply state) → Prop)
    (pool : Pool call op reply state α) (stages : List Stage) : Prop where
  inv : inv pool.shared pool.trace
  obeys : List.Forall₂
    (fun task stage => task.2.Obeys protocol stage (protocol.ends task.1))
    pool.tasks stages
  own : ∀ {task : ℕ} {stage}, stages[task]? = some stage →
    own task stage pool.shared pool.trace
  token : ∀ {task other : ℕ} {stage otherStage held},
    stages[task]? = some stage →
    stages[other]? = some otherStage → token stage = some held →
    token otherStage = some held → task = other
  past : ∀ past ∈ pool.trace, past.task < pool.tasks.length

/-- A move from outside starts a call that may be started there. -/
def Move.Admitted (admits : call → Prop) : Move call env → Prop
  | .start call => admits call
  | .step _ _ => True

/-- The stage of a task after one of the tasks moved, perhaps with a new one. -/
theorem stage_cases {stages : List Stage} {task other : ℕ}
    {new stage : Stage} {spawned : Option Stage}
    (found : (stages.set task new ++ spawned.toList)[other]? = some stage) :
    (other = task ∧ stage = new) ∨
      (other ≠ task ∧ stages[other]? = some stage) ∨
      (other = stages.length ∧ spawned = some stage) := by
  by_cases old : other < stages.length
  · rw [List.getElem?_append_left (by rw [List.length_set]; exact old),
      List.getElem?_set] at found
    by_cases same : task = other
    · subst same
      rw [if_pos rfl, if_pos old] at found
      exact .inl ⟨rfl, (Option.some.inj found).symm⟩
    · rw [if_neg same] at found
      exact .inr (.inl ⟨Ne.symm same, found⟩)
  · right
    right
    rw [List.getElem?_append_right
      (by rw [List.length_set]; exact Nat.not_lt.mp old)] at found
    cases spawned with
    | none => simp at found
    | some spawned =>
        obtain ⟨first, same⟩ := List.getElem?_eq_some_iff.mp found
        simp only [List.length_set, Option.toList_some,
          List.length_singleton] at first
        simp only [Option.toList_some, List.getElem_singleton] at same
        exact ⟨by omega, congrArg some same⟩

namespace Outlined

variable {protocol : Protocol call op reply α Stage} {τ : Type}
  {token : Stage → Option τ}
  {inv : state → List (Occurrence op reply state) → Prop}
  {own : ℕ → Stage → state → List (Occurrence op reply state) → Prop}
  {pool : Pool call op reply state α} {stages : List Stage}

/-- The stage and what is left of the task whose turn it is. -/
theorem stage_of_task (holds : Outlined protocol token inv own pool stages)
    {task : ℕ} {entry : call × Script op reply α}
    (found : pool.tasks[task]? = some entry) :
    ∃ stage, stages[task]? = some stage ∧
      entry.2.Obeys protocol stage (protocol.ends entry.1) := by
  obtain ⟨inside, same⟩ := List.getElem?_eq_some_iff.mp found
  have insideStages : task < stages.length := by
    rw [← holds.obeys.length_eq]
    exact inside
  refine ⟨stages[task], List.getElem?_eq_getElem insideStages, ?_⟩
  have obeys := holds.obeys.get inside insideStages
  simp only [List.get_eq_getElem, same] at obeys
  exact obeys

end Outlined

namespace Outline

variable {system : System call op reply env state α}
  {protocol : Protocol call op reply α Stage} {admits : call → Prop}
  {τ : Type} {token : Stage → Option τ}
  {inv : state → List (Occurrence op reply state) → Prop}
  {own : ℕ → Stage → state → List (Occurrence op reply state) → Prop}
  {pool : Pool call op reply state α} {stages : List Stage}

theorem step_start (outline : Outline system protocol admits token inv own)
    (holds : Outlined protocol token inv own pool stages) (call : call)
    (admitted : admits call) :
    Outlined protocol token inv own
      { pool with tasks := pool.tasks ++ [(call, system.program call)] }
      (stages ++ [protocol.start call]) := by
  have sameLength := holds.obeys.length_eq
  have cases_of : ∀ {task : ℕ} {stage},
      (stages ++ [protocol.start call])[task]? = some stage →
      stages[task]? = some stage ∨
        (task = stages.length ∧ stage = protocol.start call) := by
    intro task stage found
    by_cases old : task < stages.length
    · rw [List.getElem?_append_left old] at found
      exact .inl found
    · rw [List.getElem?_append_right (Nat.not_lt.mp old)] at found
      obtain ⟨first, same⟩ := List.getElem?_eq_some_iff.mp found
      simp only [List.length_singleton] at first
      simp only [List.getElem_singleton] at same
      exact .inr ⟨by omega, same.symm⟩
  refine ⟨holds.inv, ?_, ?_, ?_, ?_⟩
  · apply List.rel_append holds.obeys
    exact .cons (outline.obeys call) .nil
  · intro task stage found
    rcases cases_of found with old | new
    · exact holds.own old
    · obtain ⟨last, same⟩ := new
      subst same
      apply outline.begins call _ _ _ admitted holds.inv
      rw [last, ← sameLength]
      exact holds.past
  · intro task other stage otherStage held found otherFound has otherHas
    rcases cases_of found with old | new
    · rcases cases_of otherFound with otherOld | otherNew
      · exact holds.token old otherOld has otherHas
      · rw [otherNew.2, outline.bare call admitted] at otherHas
        cases otherHas
    · rw [new.2, outline.bare call admitted] at has
      cases has
  · intro past member
    have older := holds.past past member
    simp only [List.length_append, List.length_singleton]
    omega

theorem step_request (outline : Outline system protocol admits token inv own)
    (holds : Outlined protocol token inv own pool stages)
    {task : ℕ} {call : call} {request : op}
    {rest : reply request → Script op reply α}
    (found : pool.tasks[task]? = some (call, .call request rest))
    (ready : system.ready pool.shared request = true) (conditions : env) :
    ∃ stages, Outlined protocol token inv own
      { shared := (system.exec conditions pool.shared request).2
        tasks := pool.tasks.set task
            (call, rest (system.exec conditions pool.shared request).1) ++
          ((system.spawns request).map fun call =>
            (call, system.program call)).toList
        trace := ⟨task, pool.shared, request,
            (system.exec conditions pool.shared request).1⟩ :: pool.trace }
      stages := by
  obtain ⟨stage, staged, allowed, goes⟩ := holds.stage_of_task found
  have sameLength := holds.obeys.length_eq
  have inside := (List.getElem?_eq_some_iff.mp found).1
  have turn : Turn system protocol inv own task stage pool.shared pool.trace
      request := ⟨holds.inv, holds.own staged, allowed, ready⟩
  refine ⟨stages.set task (protocol.next stage request
      (system.exec conditions pool.shared request).1) ++
    ((system.spawns request).map protocol.start).toList, ?_, ?_, ?_, ?_, ?_⟩
  · exact outline.keeps turn conditions
  · apply List.rel_append
    · rw [List.forall₂_iff_get]
      refine ⟨by simp [sameLength], ?_⟩
      intro i insideTasks insideStages
      simp only [List.length_set] at insideTasks insideStages
      simp only [List.get_eq_getElem, List.getElem_set]
      by_cases same : task = i
      · rw [if_pos same, if_pos same]
        exact goes _
      · rw [if_neg same, if_neg same]
        have obeys := holds.obeys.get insideTasks insideStages
        simp only [List.get_eq_getElem] at obeys
        exact obeys
    · cases system.spawns request with
      | none => exact .nil
      | some spawned => exact .cons (outline.obeys spawned) .nil
  · intro other otherStage otherFound
    rcases stage_cases otherFound with
      ⟨same, sameStage⟩ | ⟨different, old⟩ | ⟨last, spawn⟩
    · subst same
      subst sameStage
      exact outline.reaches turn conditions
    · apply outline.frames turn conditions other otherStage different
        (holds.own old)
      intro held has otherHas
      exact different (holds.token old staged otherHas has)
    · obtain ⟨spawned, spawns, same⟩ := Option.map_eq_some_iff.mp spawn
      subst same
      apply outline.spawned turn conditions spawned other spawns (by omega)
      intro past member
      have older := holds.past past member
      omega
  · have kept : ∀ {held}, token (protocol.next stage request
        (system.exec conditions pool.shared request).1) = some held →
        ∀ {other : ℕ} {otherStage}, other ≠ task →
          stages[other]? = some otherStage → token otherStage ≠ some held := by
      intro held has other otherStage different old otherHas
      rcases outline.renews turn conditions held has with before | new
      · exact different (holds.token old staged otherHas before)
      · exact new other otherStage (holds.own old) otherHas
    have handed : ∀ {spawned held}, system.spawns request = some spawned →
        token (protocol.start spawned) = some held →
        (∀ {other : ℕ} {otherStage}, other ≠ task →
          stages[other]? = some otherStage → token otherStage ≠ some held) ∧
        token (protocol.next stage request
          (system.exec conditions pool.shared request).1) ≠ some held := by
      intro spawned held spawns has
      obtain ⟨before, given⟩ :=
        outline.passes turn conditions spawned held spawns has
      refine ⟨?_, given⟩
      intro other otherStage different old otherHas
      exact different (holds.token old staged otherHas before)
    intro one other oneStage otherStage held oneFound otherFound has otherHas
    rcases stage_cases oneFound with
      ⟨same, sameStage⟩ | ⟨different, old⟩ | ⟨last, spawn⟩
    · subst sameStage
      rcases stage_cases otherFound with
        ⟨otherSame, _⟩ | ⟨otherDifferent, otherOld⟩ | ⟨_, otherSpawn⟩
      · rw [same, otherSame]
      · exact absurd otherHas (kept has otherDifferent otherOld)
      · obtain ⟨spawned, spawns, sameStart⟩ :=
          Option.map_eq_some_iff.mp otherSpawn
        subst sameStart
        exact absurd has (handed spawns otherHas).2
    · rcases stage_cases otherFound with
        ⟨_, otherSameStage⟩ | ⟨_, otherOld⟩ | ⟨_, otherSpawn⟩
      · subst otherSameStage
        exact absurd has (kept otherHas different old)
      · exact holds.token old otherOld has otherHas
      · obtain ⟨spawned, spawns, sameStart⟩ :=
          Option.map_eq_some_iff.mp otherSpawn
        subst sameStart
        exact absurd has ((handed spawns otherHas).1 different old)
    · obtain ⟨spawned, spawns, sameStart⟩ := Option.map_eq_some_iff.mp spawn
      subst sameStart
      rcases stage_cases otherFound with
        ⟨_, otherSameStage⟩ | ⟨otherDifferent, otherOld⟩ | ⟨otherLast, _⟩
      · subst otherSameStage
        exact absurd otherHas (handed spawns has).2
      · exact absurd otherHas ((handed spawns has).1 otherDifferent otherOld)
      · rw [last, otherLast]
  · intro past member
    simp only [List.length_append, List.length_set]
    rcases List.mem_cons.mp member with latest | earlier
    · subst latest
      exact Nat.lt_add_right _ inside
    · exact Nat.lt_add_right _ (holds.past past earlier)

/-- One move keeps the outline. -/
theorem step (outline : Outline system protocol admits token inv own)
    (holds : ∃ stages, Outlined protocol token inv own pool stages)
    (move : Move call env) (admitted : move.Admitted admits) :
    ∃ stages, Outlined protocol token inv own (system.next pool move) stages := by
  obtain ⟨stages, holds⟩ := holds
  rcases system.next_cases pool move with
    ⟨call, started, same⟩ |
    ⟨task, conditions, call, request, rest, _, found, ready, same⟩ | same
  · subst started
    rw [same]
    exact ⟨_, outline.step_start holds call admitted⟩
  · rw [same]
    exact outline.step_request holds found ready conditions
  · rw [same]
    exact ⟨stages, holds⟩

/-- The outline holds in every pool that a run reaches. -/
theorem run (outline : Outline system protocol admits token inv own)
    {s : state} (begins : inv s []) (moves : List (Move call env))
    (admitted : ∀ move ∈ moves, move.Admitted admits) :
    ∃ stages, Outlined protocol token inv own (system.run s moves) stages := by
  induction moves using List.reverseRecOn with
  | nil =>
      refine ⟨[], begins, .nil, ?_, ?_, ?_⟩
      · intro task stage found
        simp at found
      · intro task other stage otherStage held found
        simp at found
      · intro past member
        cases member
  | append_singleton moves move induction =>
      have same : system.run s (moves ++ [move]) =
          system.next (system.run s moves) move :=
        System.run_append moves [move]
      rw [same]
      apply outline.step _ move (admitted move (by simp))
      apply induction
      intro earlier member
      exact admitted earlier (by simp [member])

end Outline

end MiryadCore
