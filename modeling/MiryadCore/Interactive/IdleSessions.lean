import MiryadCore.Control.History
import MiryadCore.Interactive.OpenSessions

/-!
# Idle sessions and the bound

`open_` compares the bound with the sessions in memory, idle or not, and idle
sessions leave the memory only when a session is touched.  A refusal is thus
justified as long as no idle session is left in memory when the sessions are
counted and reach the bound.
-/

namespace MiryadCore.Interactive.Manager

variable {parts : Parts}

/-- A session in memory was used less than `idle_ttl` ago, or has a turn. -/
def InUse (manager : Manager parts) (now : ℕ) (id : SessionId) (entry : ℕ) :
    Bool :=
  decide (now - ((manager.entries[entry]?).elim now Entry.lastUsed) <
    manager.limits.idleTtlMs) || parts.gate.isActive id manager.gate

/-- The sessions of a subject in memory that are in use. -/
def inUse (manager : Manager parts) (now : ℕ) (subject : String) : ℕ :=
  manager.table.byId.countP fun entry =>
    decide (entry.2.1 = subject) && manager.InUse now entry.1 entry.2.2

/-- No session of the subject in memory is idle. -/
def NoneIdle (manager : Manager parts) (now : ℕ) (subject : String) : Prop :=
  ∀ entry ∈ manager.table.byId, entry.2.1 = subject →
    manager.InUse now entry.1 entry.2.2 = true

theorem inUse_of_noneIdle {manager : Manager parts} {now : ℕ}
    {subject : String} (busy : NoneIdle manager now subject) :
    manager.inUse now subject = manager.table.count subject := by
  unfold inUse Table.count
  apply List.countP_congr
  intro entry member
  constructor
  · intro both
    exact (Bool.and_eq_true_iff.mp both).1
  · intro mine
    exact Bool.and_eq_true_iff.mpr
      ⟨mine, busy entry member (of_decide_eq_true mine)⟩

/-- The next section of the task counts the sessions of the subject. -/
def Counts (pool : Pool Call Section Section.Reply (Manager parts) Answer)
    (task : ℕ) (subject : String) : Prop :=
  ∃ call rest, pool.tasks[task]? = some (call, .call (.count subject) rest)

/-- A refusal comes from a moment when there are too many sessions in use. -/
def Justified (limits : Limits) (first : Manager parts)
    (moves : List (Move Call Conditions)) : Prop :=
  ∀ (task : ℕ) subject context agent,
    ((system parts limits).run first moves).tasks[task]? =
      some (.open_ subject context agent,
        .done (.opened (.error tooMany))) →
    ∃ earlier conditions,
      earlier ++ [.step task conditions] <+: moves ∧
      Counts ((system parts limits).run first earlier) task subject ∧
      limits.maxOpenPerUser ≤
        ((system parts limits).run first earlier).shared.inUse conditions.now
          subject

/-- Whenever sessions are counted and reach the bound, none of their subject is
idle. -/
def Unloaded (limits : Limits) (first : Manager parts)
    (moves : List (Move Call Conditions)) : Prop :=
  ∀ earlier task conditions subject,
    earlier ++ [.step task conditions] <+: moves →
    Counts ((system parts limits).run first earlier) task subject →
    limits.maxOpenPerUser ≤
      ((system parts limits).run first earlier).shared.table.count subject →
    NoneIdle ((system parts limits).run first earlier).shared conditions.now
      subject

/-- The stage tells whether a count has reached the bound. -/
def counting (bound : ℕ) (subject : String) :
    Protocol Call Section Section.Reply Answer Bool where
  start _ := false
  allows _ _ := True
  next
    | reached, .count other, count =>
        reached || decide (other = subject ∧ bound ≤ count)
    | reached, _, _ => reached
  ends _ reached answer := answer = .opened (.error tooMany) → reached = true

/-- A stage that was reached was reached at a turn. -/
theorem turn_of_after {bound : ℕ} {subject : String}
    (turns : List (Passage parts)) :
    (counting bound subject).after false turns = true →
    ∃ task before count, bound ≤ count ∧
      (⟨task, before, .count subject, count⟩ : Passage parts) ∈ turns := by
  induction turns using List.reverseRecOn with
  | nil => exact fun reached => by cases reached
  | append_singleton turns turn induction =>
      intro reached
      unfold Protocol.after at reached induction
      rw [List.foldl_append] at reached
      by_cases before : turns.foldl (fun stage turn =>
          (counting bound subject).next stage turn.request turn.answer)
          false = true
      · obtain ⟨past, state, count, full, member⟩ := induction before
        exact ⟨past, state, count, full, List.mem_append_left _ member⟩
      · obtain ⟨task, manager, request, answer⟩ := turn
        cases request with
        | count other =>
            simp only [counting, List.foldl_cons, List.foldl_nil,
              Bool.or_eq_true, decide_eq_true_eq] at reached
            rcases reached with earlier | now
            · exact absurd earlier before
            · obtain ⟨rfl, full⟩ := now
              exact ⟨_, _, answer, full,
                List.mem_append_right _ List.mem_cons_self⟩
        | _ => exact absurd reached before

theorem asking_obeys {α : Type} {code : Code α} (asking : Asking code)
    (bound : ℕ) (subject : String) (reached : Bool) :
    Script.Obeys (counting bound subject) code reached fun after result =>
      after = reached ∧ ∀ error, result = .error error → error ≠ tooMany := by
  apply Query.Within.obeys asking (fun _ _ => trivial)
  intro request asks answer
  cases request <;> first | exact asks.elim | rfl

theorem checkCount_obeys (bound : ℕ) (caller : CallerPrincipal)
    (subject : String) :
    Script.Obeys (counting bound subject) (checkCount bound caller subject) false
      fun reached result => ∀ error, result = .error error → reached = true := by
  by_cases isAdmin : caller.isAdmin = true
  · unfold checkCount
    rw [if_pos isAdmin]
    intro error same
    cases same
  · unfold checkCount
    rw [if_neg isAdmin]
    refine ⟨trivial, fun count => ?_⟩
    show Script.Obeys _ (if bound ≤ count then throw tooMany
      else pure () : Code Unit) _ _
    split
    next full =>
      intro error _
      simp [counting, full]
    next =>
      intro error same
      cases same

theorem open_counts (limits : Limits) (subject context : String)
    (agent : Option String) :
    Script.Obeys (counting limits.maxOpenPerUser subject)
      (open_ limits.maxOpenPerUser subject context agent) false
      fun reached result => result = .error tooMany → reached = true := by
  have onward : ∀ {α β : Type} {code : Code α} {next : α → Code β}
      {reached : Bool}, Asking code →
      (∀ value, Script.Obeys (counting limits.maxOpenPerUser subject)
        (next value) reached fun reached result =>
          result = .error tooMany → reached = true) →
      Script.Obeys (counting limits.maxOpenPerUser subject)
        (code >>= next : Code β) reached fun reached result =>
          result = .error tooMany → reached = true := by
    intro α β code next reached asking rest
    apply Query.obeys_bind
    apply (asking_obeys asking _ _ _).mono
    intro after result told
    obtain ⟨rfl, fails⟩ := told
    cases result with
    | ok value => exact rest value
    | error error =>
        intro same
        exact absurd (Except.error.inj same) (fails error rfl)
  apply onward (asking_principal subject)
  intro caller
  apply onward (asking_resolveStart caller context agent)
  intro start
  have saved : ∀ reached, Script.Obeys
      (counting limits.maxOpenPerUser subject)
      (do let versions ← toolsetVersions subject start.2.2.toolsets
          let id ← get .uuid
          let createdAt ← get .now
          demand
            (.save subject
              { id, kind := start.1, agentName := start.2.2.id
                fingerprint := start.2.2.fingerprint, context, versions
                createdAt })
            (Except.mapError fromSession)
          demand (.stampContext subject id context) storeError
          get (.hub (.register id subject))
          let _ ← touch subject id
          return { id, kind := start.1, agentId := start.2.1, context
                   notices := [] } : Code SessionHandle)
      reached fun reached result =>
        result = .error tooMany → reached = true := by
    intro reached
    apply onward (asking_toolsetVersions subject _)
    intro versions
    refine ⟨trivial, fun id => ⟨trivial, fun createdAt => ⟨trivial, ?_⟩⟩⟩
    intro saved
    cases saved with
    | error cause =>
        intro same
        exact absurd (Except.error.inj same) (fromSession_ne cause)
    | ok _ =>
        refine ⟨trivial, fun stamped => ?_⟩
        cases stamped with
        | error text =>
            intro same
            exact absurd (Except.error.inj same) (store_ne text)
        | ok _ =>
            exact ⟨trivial, fun _ => ⟨trivial, fun now => ⟨trivial,
              fun entry same => by cases same⟩⟩⟩
  apply Query.obeys_bind
  apply (checkCount_obeys limits.maxOpenPerUser caller subject).mono
  intro reached result told
  cases result with
  | ok _ => exact saved reached
  | error error => exact fun _ => told error rfl

/-- For any calls in any order and any clock, refusals are justified when no
idle session of the subject is left in memory each time that its sessions are
counted and reach the bound. -/
theorem justified_of_unloaded {limits : Limits} {first : Manager parts}
    {moves : List (Move Call Conditions)}
    (unloaded : Unloaded limits first moves) :
    Justified limits first moves := by
  intro task subject context agent ended
  have goes := System.follows moves ended
  have obeys : ((system parts limits).program
      (.open_ subject context agent)).Obeys
        (counting limits.maxOpenPerUser subject) false
        ((counting limits.maxOpenPerUser subject).ends
          (.open_ subject context agent)) := by
    apply Script.Obeys.bind
    apply (open_counts limits subject context agent).mono
    intro reached result told same
    cases same
    exact told rfl
  have reached := obeys.left goes rfl
  obtain ⟨turn, before, count, full, listed⟩ := turn_of_after _ reached
  obtain ⟨member, mine⟩ := Pool.mem_turns.mp listed
  have mine : turn = task := mine
  subst mine
  obtain ⟨earlier, conditions, call, rest, begins, found, asks, answered⟩ :=
    System.move_of_trace moves _ member
  have counts : Counts ((system parts limits).run first earlier) turn subject :=
    ⟨call, rest, asks⟩
  refine ⟨earlier, conditions, begins, counts, ?_⟩
  have told : count = before.table.count subject := answered
  have found : ((system parts limits).run first earlier).shared = before :=
    found
  rw [told, ← found] at full
  rw [inUse_of_noneIdle
    (unloaded earlier turn conditions subject begins counts full)]
  exact full

abbrev onePerUser : Manager ⟨Ring.broadcast SessionEvent, TurnGate.listed⟩ :=
  Manager.new _ ⟨1, 1000⟩ (fun _ => false) (Hub.new _ false 256)

/-- A session is opened, and another is asked for at once. -/
def refusedAtOnce : List (Move Call Conditions) :=
  [.start (.open_ "alice" "context" none)] ++
    List.replicate 13 (.step 0 { uuid := "s1" }) ++
    [.start (.open_ "alice" "context" none)] ++
    List.replicate 6 (.step 1 {})

theorem justified_of_unloaded_at_once :
    ((system _ ⟨1, 1000⟩).run onePerUser refusedAtOnce).tasks[1]? =
      some (.open_ "alice" "context" none,
        .done (.opened (.error tooMany))) ∧
    Justified ⟨1, 1000⟩ onePerUser refusedAtOnce := by
  refine ⟨rfl, justified_of_unloaded ?_⟩
  intro earlier task conditions subject begins counts full entry member mine
  have early : conditions.now = 0 := by
    have moved : Move.step task conditions ∈ refusedAtOnce :=
      begins.subset (List.mem_append_right _ List.mem_cons_self)
    simp only [refusedAtOnce, List.mem_append, List.mem_replicate,
      List.mem_singleton, Move.step.injEq, reduceCtorEq, false_or,
      or_false] at moved
    rcases moved with ⟨_, _, rfl⟩ | ⟨_, _, rfl⟩ <;> rfl
  obtain ⟨more, same⟩ := begins
  have taken : refusedAtOnce.take earlier.length = earlier := by
    rw [← same]
    simp
  have inside : earlier.length < 21 := by
    have whole := congrArg List.length same
    rw [show refusedAtOnce.length = 21 from rfl] at whole
    simp only [List.length_append, List.length_singleton] at whole
    omega
  have kept : ∀ n < 21, ((system ⟨Ring.broadcast SessionEvent,
      TurnGate.listed⟩ ⟨1, 1000⟩).run onePerUser
        (refusedAtOnce.take n)).shared.limits.idleTtlMs = 1000 := by
    decide +kernel
  have bounded := kept earlier.length inside
  rw [taken] at bounded
  unfold InUse
  rw [bounded, early, Nat.zero_sub]
  rfl

/-- What the clock shows at the moves. -/
def clock : List (Move Call Conditions) → List ℕ
  | [] => []
  | .start _ :: moves => clock moves
  | .step _ conditions :: moves => conditions.now :: clock moves

/-- A session is opened; another is asked for when the first has been idle for
five times as long as idle sessions are kept. -/
def longIdleRefused : List (Move Call Conditions) :=
  [.start (.open_ "alice" "context" none)] ++
    List.replicate 13 (.step 0 { uuid := "s1" }) ++
    [.start (.open_ "alice" "context" none)] ++
    List.replicate 6 (.step 1 { now := 5000 })

/-- No session of alice is in use when the second call makes this move. -/
def unusedAt (n : ℕ) : Bool :=
  match (longIdleRefused[n]? : Option (Move Call Conditions)) with
  | some (.step 1 conditions) =>
      ((system ⟨Ring.broadcast SessionEvent, TurnGate.listed⟩ ⟨1, 1000⟩).run
        onePerUser (longIdleRefused.take n)).shared.inUse conditions.now
          "alice" == 0
  | _ => true

/-- The session that nobody uses any more is counted, and leads to a
refusal. -/
theorem idle_session_counted :
    ¬ ∀ moves, (clock moves).Pairwise (· ≤ ·) →
      Justified ⟨1, 1000⟩ onePerUser moves := by
  intro all
  obtain ⟨earlier, conditions, begins, _, full⟩ :=
    all longIdleRefused (by decide +kernel) 1 "alice" "context" none rfl
  obtain ⟨more, same⟩ := begins
  have asked : longIdleRefused[earlier.length]? = some (.step 1 conditions) := by
    rw [← same]
    simp
  have taken : longIdleRefused.take earlier.length = earlier := by
    rw [← same]
    simp
  have inside : earlier.length < 21 :=
    (List.getElem?_eq_some_iff.mp asked).1
  have unused : ∀ n < 21, unusedAt n = true := by decide +kernel
  have none := unused earlier.length inside
  unfold unusedAt at none
  rw [asked, taken] at none
  have none : ((system _ ⟨1, 1000⟩).run onePerUser earlier).shared.inUse
      conditions.now "alice" = 0 := eq_of_beq none
  rw [none] at full
  exact absurd full (by decide)

end MiryadCore.Interactive.Manager
