import MiryadCore.Control.Pool

/-!
# What a task has done

A call goes where the answers to its requests lead it.  The turns of a task in
the trace of a pool tell what is left of its call, and an invariant of the runs
may use what each task that moves has done before.
-/

namespace MiryadCore

variable {call op : Type} {reply : op → Type} {env state α β γ ε : Type}

/-- Answered so at each of these turns, the oldest first, the script goes on
with `left`. -/
def Script.Follows : List (Occurrence op reply state) → Script op reply α →
    Script op reply α → Prop
  | [], script, left => left = script
  | _ :: _, .done _, _ => False
  | turn :: more, .call request rest, left =>
      ∃ task before answer, turn = ⟨task, before, request, answer⟩ ∧
        (rest answer).Follows more left

namespace Script

variable {script : Script op reply α} {left : Script op reply α}
  {turns : List (Occurrence op reply state)}

theorem Follows.of_done {value : α} (follows : (Script.done value).Follows turns left) :
    turns = [] ∧ left = .done value := by
  cases turns with
  | nil => exact ⟨rfl, follows⟩
  | cons turn more => exact follows.elim

/-- A script that has made a request has had a turn for it. -/
theorem Follows.of_call {request : op} {rest : reply request → Script op reply α}
    (follows : (Script.call request rest).Follows turns left) :
    (turns = [] ∧ left = .call request rest) ∨
    ∃ task before answer more, turns = ⟨task, before, request, answer⟩ :: more ∧
      (rest answer).Follows more left := by
  cases turns with
  | nil => exact Or.inl ⟨rfl, follows⟩
  | cons turn more =>
      obtain ⟨task, before, answer, rfl, goes⟩ := follows
      exact Or.inr ⟨task, before, answer, more, rfl, goes⟩

/-- One more turn. -/
theorem Follows.snoc {request : op} {rest : reply request → Script op reply α}
    (follows : script.Follows turns (.call request rest)) (task : ℕ)
    (before : state) (answer : reply request) :
    script.Follows (turns ++ [⟨task, before, request, answer⟩])
      (rest answer) := by
  induction turns generalizing script with
  | nil =>
      obtain rfl : Script.call request rest = script := follows
      exact ⟨task, before, answer, rfl, rfl⟩
  | cons turn more induction =>
      cases script with
      | done value => exact follows.elim
      | call asked next =>
          obtain ⟨_, _, told, rfl, goes⟩ := follows
          exact ⟨_, _, told, rfl, induction goes⟩

/-- The turns of a script that makes only such requests. -/
theorem Only.of_follows {allowed : op → Prop} (only : script.Only allowed)
    (follows : script.Follows turns left) :
    ∀ turn ∈ turns, allowed turn.request := by
  induction turns generalizing script with
  | nil =>
      intro turn member
      cases member
  | cons latest more induction =>
      cases script with
      | done value => exact follows.elim
      | call request rest =>
          obtain ⟨task, before, answer, rfl, goes⟩ := follows
          intro turn member
          rcases List.mem_cons.mp member with first | later
          · exact first ▸ only.1
          · exact induction (only.2 answer) goes turn later

end Script

/-- The turns of a task, the oldest first. -/
def Pool.turns (pool : Pool call op reply state α) (task : ℕ) :
    List (Occurrence op reply state) :=
  (pool.trace.filter fun turn => turn.task = task).reverse

theorem Pool.mem_turns {pool : Pool call op reply state α} {task : ℕ}
    {turn : Occurrence op reply state} :
    turn ∈ pool.turns task ↔ turn ∈ pool.trace ∧ turn.task = task := by
  simp [Pool.turns]

/-- The turns around one of a task are on the same sides of it in the trace. -/
theorem Pool.trace_of_turns {pool : Pool call op reply state α} {task : ℕ}
    {early late : List (Occurrence op reply state)}
    {turn : Occurrence op reply state}
    (split : pool.turns task = early ++ turn :: late) :
    ∃ later earlier, pool.trace = later ++ turn :: earlier ∧
      (∀ past ∈ late, past ∈ later) ∧ ∀ past ∈ early, past ∈ earlier := by
  rw [Pool.turns, List.reverse_eq_iff, List.reverse_append,
    List.reverse_cons, List.append_assoc, List.singleton_append,
    List.filter_eq_append_iff] at split
  obtain ⟨first, second, same, firsts, seconds⟩ := split
  rw [List.filter_eq_cons_iff] at seconds
  obtain ⟨skipped, earlier, rfl, _, _, rest⟩ := seconds
  refine ⟨first ++ skipped, earlier, by rw [same, List.append_assoc], ?_, ?_⟩
  · intro past member
    rw [← List.mem_reverse, ← firsts] at member
    exact List.mem_append_left _ (List.mem_of_mem_filter member)
  · intro past member
    rw [← List.mem_reverse, ← rest] at member
    exact List.mem_of_mem_filter member

/-- The stage that these turns lead to, the oldest first. -/
def Protocol.after {Stage : Type} (protocol : Protocol call op reply γ Stage)
    (stage : Stage) (turns : List (Occurrence op reply state)) : Stage :=
  turns.foldl
    (fun stage turn => protocol.next stage turn.request turn.answer) stage

/-- What is left of a script keeps to the protocol from the stage reached. -/
theorem Script.Obeys.left {Stage : Type}
    {protocol : Protocol call op reply γ Stage} {script left : Script op reply α}
    {stage : Stage} {ends : Stage → α → Prop}
    {turns : List (Occurrence op reply state)}
    (obeys : script.Obeys protocol stage ends)
    (follows : script.Follows turns left) :
    left.Obeys protocol (protocol.after stage turns) ends := by
  induction turns generalizing script stage with
  | nil =>
      obtain rfl : left = script := follows
      exact obeys
  | cons turn more induction =>
      cases script with
      | done value => exact follows.elim
      | call request rest =>
          obtain ⟨task, before, answer, rfl, goes⟩ := follows
          exact induction (obeys.2 answer) goes

/-- What each request at a stage adds to what the earlier turns tell. -/
theorem Script.Obeys.tells {Stage : Type}
    {protocol : Protocol call op reply γ Stage} {script left : Script op reply α}
    {stage : Stage} {ends : Stage → α → Prop}
    {turns : List (Occurrence op reply state)}
    {tells : Stage → List (Occurrence op reply state) → Prop}
    (adds : ∀ stage past turn, tells stage past →
      protocol.allows stage turn.request →
      tells (protocol.next stage turn.request turn.answer) (past ++ [turn]))
    (obeys : script.Obeys protocol stage ends)
    (follows : script.Follows turns left)
    {past : List (Occurrence op reply state)} (told : tells stage past) :
    tells (protocol.after stage turns) (past ++ turns) := by
  induction turns generalizing script stage past with
  | nil => exact (List.append_nil past).symm ▸ told
  | cons turn more induction =>
      cases script with
      | done value => exact follows.elim
      | call request rest =>
          obtain ⟨task, before, answer, rfl, goes⟩ := follows
          have more' := induction (obeys.2 answer) goes
            (adds stage past ⟨task, before, request, answer⟩ told obeys.1)
          rw [List.append_assoc, List.singleton_append] at more'
          exact more'

namespace System

variable {system : System call op reply env state α} {s : state}

/-- A property of the pools that each start and each request keeps. -/
theorem run_induction (holds : Pool call op reply state α → Prop)
    (begins : holds (idle s))
    (starts : ∀ (moves : List (Move call env)) (call : call),
      holds (system.run s moves) →
      holds { system.run s moves with
        tasks := (system.run s moves).tasks ++
          [(call, system.program call)] })
    (steps : ∀ (moves : List (Move call env)) (task : ℕ) (conditions : env)
      (call : call) (request : op)
      (rest : reply request → Script op reply α),
      (system.run s moves).tasks[task]? = some (call, .call request rest) →
      system.ready (system.run s moves).shared request = true →
      holds (system.run s moves) →
      holds
        { shared := (system.exec conditions (system.run s moves).shared
            request).2
          tasks := (system.run s moves).tasks.set task (call,
              rest (system.exec conditions (system.run s moves).shared
                request).1) ++
            ((system.spawns request).map fun call =>
              (call, system.program call)).toList
          trace := ⟨task, (system.run s moves).shared, request,
              (system.exec conditions (system.run s moves).shared request).1⟩
            :: (system.run s moves).trace })
    (moves : List (Move call env)) : holds (system.run s moves) := by
  induction moves using List.reverseRecOn with
  | nil => exact begins
  | append_singleton moves move induction =>
      have last : system.run s (moves ++ [move]) =
          system.next (system.run s moves) move :=
        run_append moves [move]
      rw [last]
      rcases system.next_cases (system.run s moves) move with
        ⟨call, _, same⟩ |
        ⟨task, conditions, call, request, rest, _, found, ready, same⟩ | same
      · rw [same]
        exact starts moves call induction
      · rw [same]
        exact steps moves task conditions call request rest found ready
          induction
      · rw [same]
        exact induction

/-- Each turn in the trace is one of a task that was started. -/
theorem task_lt_of_trace (moves : List (Move call env)) :
    ∀ turn ∈ (system.run s moves).trace,
      turn.task < (system.run s moves).tasks.length := by
  apply run_induction fun pool =>
    ∀ turn ∈ pool.trace, turn.task < pool.tasks.length
  case begins =>
    intro turn member
    cases member
  case starts =>
    intro moves call older turn member
    rw [List.length_append]
    exact Nat.lt_add_right _ (older turn member)
  case steps =>
    intro moves task conditions call request rest found ready older turn member
    rw [List.length_append, List.length_set]
    rcases List.mem_cons.mp member with latest | earlier
    · subst latest
      exact Nat.lt_add_right _ (List.getElem?_eq_some_iff.mp found).1
    · exact Nat.lt_add_right _ (older turn earlier)

/-- A task that starts has had no turn yet. -/
theorem turns_length (system : System call op reply env state α) (s : state)
    (moves : List (Move call env)) :
    (system.run s moves).turns (system.run s moves).tasks.length = [] := by
  rw [Pool.turns, List.reverse_eq_nil_iff, List.filter_eq_nil_iff]
  intro turn member
  have older := task_lt_of_trace moves turn member
  simp only [decide_eq_true_eq]
  exact Nat.ne_of_lt older

/-- The turns of a task tell what is left of its call. -/
theorem follows (moves : List (Move call env)) {task : ℕ} {call : call}
    {script : Script op reply α}
    (found : (system.run s moves).tasks[task]? = some (call, script)) :
    (system.program call).Follows ((system.run s moves).turns task)
      script := by
  have all : ∀ (task : ℕ) call script,
      (system.run s moves).tasks[task]? = some (call, script) →
        (system.program call).Follows ((system.run s moves).turns task)
          script := by
    apply run_induction fun pool => ∀ (task : ℕ) call script,
      pool.tasks[task]? = some (call, script) →
        (system.program call).Follows (pool.turns task) script
    case begins =>
      intro task call script found
      simp [idle] at found
    case starts =>
      intro moves started goes task call script found
      dsimp only at found
      by_cases old : task < (system.run s moves).tasks.length
      · rw [List.getElem?_append_left old] at found
        exact goes task call script found
      · rw [List.getElem?_append_right (Nat.not_lt.mp old)] at found
        obtain ⟨first, same⟩ := List.getElem?_eq_some_iff.mp found
        simp only [List.length_singleton] at first
        simp only [List.getElem_singleton, Prod.mk.injEq] at same
        obtain ⟨rfl, rfl⟩ := same
        have last : task = (system.run s moves).tasks.length := by omega
        subst last
        have none := turns_length system s moves
        unfold Pool.turns at none ⊢
        dsimp only at none ⊢
        rw [none]
        rfl
    case steps =>
      intro moves mover conditions asker request rest asks ready goes task
        call script found
      have inside := (List.getElem?_eq_some_iff.mp asks).1
      dsimp only [Pool.turns] at found ⊢
      rw [List.filter_cons]
      by_cases old : task < (system.run s moves).tasks.length
      · rw [List.getElem?_append_left (by rw [List.length_set]; exact old),
          List.getElem?_set] at found
        by_cases same : mover = task
        · subst same
          rw [if_pos rfl, if_pos inside, Option.some.injEq, Prod.mk.injEq]
            at found
          obtain ⟨rfl, rfl⟩ := found
          rw [if_pos (by simp), List.reverse_cons]
          exact (goes mover _ _ asks).snoc _ _ _
        · rw [if_neg same] at found
          rw [if_neg (by simpa using same)]
          exact goes task call script found
      · rw [List.getElem?_append_right
          (by rw [List.length_set]; exact Nat.not_lt.mp old)] at found
        have different : mover ≠ task := by omega
        rw [if_neg (by simpa using different)]
        cases spawns : system.spawns request with
        | none => simp [spawns] at found
        | some spawned =>
            rw [spawns] at found
            obtain ⟨first, same⟩ := List.getElem?_eq_some_iff.mp found
            simp only [List.length_set, Option.map_some, Option.toList_some,
              List.length_singleton] at first
            simp only [Option.map_some, Option.toList_some,
              List.getElem_singleton, Prod.mk.injEq] at same
            obtain ⟨rfl, rfl⟩ := same
            have last : task = (system.run s moves).tasks.length := by omega
            subst last
            have none := turns_length system s moves
            unfold Pool.turns at none
            rw [none]
            rfl
  exact all task call script found

/-- The stage of a task, what its turns tell, and what is left of its call. -/
theorem told {Stage : Type} (protocol : Protocol call op reply α Stage)
    (tells : call → Stage → List (Occurrence op reply state) → Prop)
    (obeys : ∀ call, (system.program call).Obeys protocol
      (protocol.start call) (protocol.ends call))
    (begins : ∀ call, tells call (protocol.start call) [])
    (adds : ∀ call stage past turn, tells call stage past →
      protocol.allows stage turn.request →
      tells call (protocol.next stage turn.request turn.answer)
        (past ++ [turn]))
    {moves : List (Move call env)} {task : ℕ} {call : call}
    {script : Script op reply α}
    (found : (system.run s moves).tasks[task]? = some (call, script)) :
    ∃ stage, tells call stage ((system.run s moves).turns task) ∧
      script.Obeys protocol stage (protocol.ends call) := by
  have goes := follows moves found
  have told := (obeys call).tells (adds call) goes (begins call)
  exact ⟨_, told, (obeys call).left goes⟩

/-- What each request keeps, made by a task that has come there, every run
keeps. -/
theorem holds_of_run
    (holds : state → List (Occurrence op reply state) → Prop)
    (begins : holds s [])
    (keeps : ∀ (moves : List (Move call env)) (task : ℕ) (conditions : env)
      (call : call) (request : op)
      (rest : reply request → Script op reply α),
      (system.program call).Follows ((system.run s moves).turns task)
        (.call request rest) →
      holds (system.run s moves).shared (system.run s moves).trace →
      holds (system.exec conditions (system.run s moves).shared request).2
        (⟨task, (system.run s moves).shared, request,
          (system.exec conditions (system.run s moves).shared request).1⟩ ::
          (system.run s moves).trace))
    (moves : List (Move call env)) :
    holds (system.run s moves).shared (system.run s moves).trace := by
  apply run_induction fun pool => holds pool.shared pool.trace
  case begins => exact begins
  case starts =>
    intro moves call before
    exact before
  case steps =>
    intro moves task conditions call request rest found ready before
    exact keeps moves task conditions call request rest (follows moves found)
      before

/-- A move leaves the state and the trace, or adds a turn of the task that it
lets go on. -/
theorem move_cases (system : System call op reply env state α) (s : state)
    (moves : List (Move call env)) (move : Move call env) :
    ((system.run s (moves ++ [move])).shared = (system.run s moves).shared ∧
      (system.run s (moves ++ [move])).trace = (system.run s moves).trace) ∨
    ∃ task conditions request, move = .step task conditions ∧
      (system.run s (moves ++ [move])).shared =
        (system.exec conditions (system.run s moves).shared request).2 ∧
      (system.run s (moves ++ [move])).trace =
        ⟨task, (system.run s moves).shared, request,
          (system.exec conditions (system.run s moves).shared request).1⟩ ::
          (system.run s moves).trace := by
  have last : system.run s (moves ++ [move]) =
      system.next (system.run s moves) move :=
    run_append moves [move]
  rw [last]
  rcases system.next_cases (system.run s moves) move with
    ⟨call, _, same⟩ |
    ⟨task, conditions, call, request, rest, is, found, ready, same⟩ | same
  · rw [same]
    exact Or.inl ⟨rfl, rfl⟩
  · rw [same]
    exact Or.inr ⟨task, conditions, request, is, rfl, rfl⟩
  · rw [same]
    exact Or.inl ⟨rfl, rfl⟩

/-- A later trace adds to an earlier one. -/
theorem trace_suffix (system : System call op reply env state α) (s : state)
    {earlier moves : List (Move call env)}
    (begins : earlier <+: moves) :
    (system.run s earlier).trace <:+ (system.run s moves).trace := by
  obtain ⟨more, rfl⟩ := begins
  induction more using List.reverseRecOn with
  | nil => simp
  | append_singleton more move induction =>
      rw [← List.append_assoc]
      apply induction.trans
      rcases move_cases system s (earlier ++ more) move with same | more'
      · exact same.2.symm ▸ List.suffix_rfl
      · obtain ⟨_, _, _, _, _, grown⟩ := more'
        rw [grown]
        exact List.suffix_cons _ _

/-- A call that has just returned did so at once, or at the turn that its task
has just had. -/
theorem returns_of_move (moves : List (Move call env)) (move : Move call env)
    {task : ℕ} {call : call} {value : α}
    (after : (system.run s (moves ++ [move])).tasks[task]? =
      some (call, .done value))
    (before : (system.run s moves).tasks[task]? ≠ some (call, .done value)) :
    system.program call = .done value ∨
    ∃ conditions request, move = .step task conditions ∧
      (system.run s (moves ++ [move])).shared =
        (system.exec conditions (system.run s moves).shared request).2 ∧
      (system.run s (moves ++ [move])).trace =
        ⟨task, (system.run s moves).shared, request,
          (system.exec conditions (system.run s moves).shared request).1⟩ ::
          (system.run s moves).trace := by
  have last : system.run s (moves ++ [move]) =
      system.next (system.run s moves) move :=
    run_append moves [move]
  rw [last] at after ⊢
  rcases system.next_cases (system.run s moves) move with
    ⟨started, _, same⟩ |
    ⟨mover, conditions, asker, request, rest, is, found, ready, same⟩ | same
  · rw [same] at after
    dsimp only at after
    by_cases old : task < (system.run s moves).tasks.length
    · rw [List.getElem?_append_left old] at after
      exact absurd after before
    · rw [List.getElem?_append_right (Nat.not_lt.mp old)] at after
      obtain ⟨first, entry⟩ := List.getElem?_eq_some_iff.mp after
      simp only [List.length_singleton] at first
      simp only [List.getElem_singleton, Prod.mk.injEq] at entry
      obtain ⟨rfl, done⟩ := entry
      exact Or.inl done
  · rw [same] at after ⊢
    dsimp only at after
    by_cases old : task < (system.run s moves).tasks.length
    · rw [List.getElem?_append_left (by rw [List.length_set]; exact old),
        List.getElem?_set] at after
      by_cases mine : mover = task
      · subst mine
        exact Or.inr ⟨conditions, request, is, rfl, rfl⟩
      · rw [if_neg mine] at after
        exact absurd after before
    · rw [List.getElem?_append_right
        (by rw [List.length_set]; exact Nat.not_lt.mp old)] at after
      cases spawns : system.spawns request with
      | none => simp [spawns] at after
      | some spawned =>
          rw [spawns] at after
          obtain ⟨first, entry⟩ := List.getElem?_eq_some_iff.mp after
          simp only [List.length_set, Option.map_some, Option.toList_some,
            List.length_singleton] at first
          simp only [Option.map_some, Option.toList_some,
            List.getElem_singleton, Prod.mk.injEq] at entry
          obtain ⟨rfl, done⟩ := entry
          exact Or.inl done
  · rw [same] at after
    exact absurd after before

/-- Each answer in the trace is one that the service gives. -/
theorem answer_of_trace (moves : List (Move call env)) :
    ∀ turn ∈ (system.run s moves).trace, ∃ conditions,
      turn.answer = (system.exec conditions turn.before turn.request).1 := by
  apply run_induction fun pool => ∀ turn ∈ pool.trace,
    ∃ conditions, turn.answer =
      (system.exec conditions turn.before turn.request).1
  case begins =>
    intro turn member
    cases member
  case starts =>
    intro moves call answered
    exact answered
  case steps =>
    intro moves task conditions call request rest found ready answered turn
      member
    rcases List.mem_cons.mp member with latest | earlier
    · subst latest
      exact ⟨conditions, rfl⟩
    · exact answered turn earlier

/-- Each turn in the trace is a move of its task. -/
theorem move_of_trace (moves : List (Move call env)) :
    ∀ turn ∈ (system.run s moves).trace, ∃ earlier conditions call rest,
      earlier ++ [.step turn.task conditions] <+: moves ∧
      (system.run s earlier).shared = turn.before ∧
      (system.run s earlier).tasks[turn.task]? =
        some (call, .call turn.request rest) ∧
      turn.answer = (system.exec conditions turn.before turn.request).1 := by
  induction moves using List.reverseRecOn with
  | nil =>
      intro turn member
      cases member
  | append_singleton moves move induction =>
      have earlier : ∀ turn ∈ (system.run s moves).trace, ∃ earlier conditions
          call rest, earlier ++ [.step turn.task conditions] <+:
            moves ++ [move] ∧
          (system.run s earlier).shared = turn.before ∧
          (system.run s earlier).tasks[turn.task]? =
            some (call, .call turn.request rest) ∧
          turn.answer =
            (system.exec conditions turn.before turn.request).1 := by
        intro turn member
        obtain ⟨earlier, conditions, call, rest, begins, told⟩ :=
          induction turn member
        exact ⟨earlier, conditions, call, rest,
          begins.trans (List.prefix_append _ _), told⟩
      have last : system.run s (moves ++ [move]) =
          system.next (system.run s moves) move :=
        run_append moves [move]
      rw [last]
      rcases system.next_cases (system.run s moves) move with
        ⟨call, _, same⟩ |
        ⟨task, conditions, call, request, rest, is, found, ready, same⟩ | same
      · rw [same]
        exact earlier
      · rw [same]
        intro turn member
        rcases List.mem_cons.mp member with latest | older
        · subst latest is
          exact ⟨moves, conditions, call, rest, List.prefix_refl _, rfl, found,
            rfl⟩
        · exact earlier turn older
      · rw [same]
        exact earlier

/-- What only grows has grown since each turn. -/
theorem grown_of_run (system : System call op reply env state α)
    (grows : state → state → Prop)
    (trans : ∀ {a b c}, grows a b → grows b c → grows a c)
    (step : ∀ conditions s request, grows s (system.exec conditions s request).2)
    (moves : List (Move call env)) :
    (∀ turn ∈ (system.run s moves).trace,
      grows turn.before (system.run s moves).shared) ∧
    ∀ later turn earlier,
      (system.run s moves).trace = later ++ turn :: earlier →
      ∀ past ∈ later, grows turn.before past.before := by
  apply run_induction fun pool : Pool call op reply state α =>
    (∀ turn ∈ pool.trace, grows turn.before pool.shared) ∧
    ∀ (later : List (Occurrence op reply state))
      (turn : Occurrence op reply state) earlier,
      pool.trace = later ++ turn :: earlier →
        ∀ past ∈ later, grows turn.before past.before
  case begins =>
    refine ⟨?_, ?_⟩
    · intro turn member
      cases member
    · intro later turn earlier split
      simp [idle] at split
  case starts =>
    intro moves call grown
    exact grown
  case steps =>
    intro moves task conditions call request rest found ready grown
    refine ⟨?_, ?_⟩
    · intro turn member
      rcases List.mem_cons.mp member with latest | earlier
      · subst latest
        exact step conditions _ request
      · exact trans (grown.1 turn earlier) (step conditions _ request)
    · intro later turn earlier split past member
      cases later with
      | nil => cases member
      | cons latest later =>
          obtain ⟨rfl, rest⟩ := List.cons.inj split
          rcases List.mem_cons.mp member with same | older
          · subst same
            exact grown.1 turn (rest ▸ by simp)
          · exact grown.2 later turn earlier rest past older

end System

/-- What each move keeps where the outline holds, every run keeps. -/
theorem Outline.run_holds {Stage τ : Type}
    {system : System call op reply env state α} {s : state}
    {protocol : Protocol call op reply α Stage} {admits : call → Prop}
    {token : Stage → Option τ}
    {inv : state → List (Occurrence op reply state) → Prop}
    {own : ℕ → Stage → state → List (Occurrence op reply state) → Prop}
    (outline : Outline system protocol admits token inv own)
    (begins : inv s []) (holds : Pool call op reply state α → Prop)
    (idle : holds (System.idle s))
    (starts : ∀ moves call, admits call → holds (system.run s moves) →
      holds { system.run s moves with
        tasks := (system.run s moves).tasks ++
          [(call, system.program call)] })
    (steps : ∀ moves task stage conditions call request rest,
      (∀ move ∈ moves, Move.Admitted admits move) →
      (system.run s moves).tasks[task]? = some (call, .call request rest) →
      Turn system protocol inv own task stage (system.run s moves).shared
        (system.run s moves).trace request →
      holds (system.run s moves) →
      holds
        { shared := (system.exec conditions (system.run s moves).shared
            request).2
          tasks := (system.run s moves).tasks.set task (call,
              rest (system.exec conditions (system.run s moves).shared
                request).1) ++
            ((system.spawns request).map fun call =>
              (call, system.program call)).toList
          trace := ⟨task, (system.run s moves).shared, request,
              (system.exec conditions (system.run s moves).shared request).1⟩
            :: (system.run s moves).trace })
    (moves : List (Move call env))
    (admitted : ∀ move ∈ moves, move.Admitted admits) :
    holds (system.run s moves) := by
  induction moves using List.reverseRecOn with
  | nil => exact idle
  | append_singleton moves move induction =>
      have before : ∀ earlier ∈ moves, earlier.Admitted admits :=
        fun earlier member => admitted earlier (by simp [member])
      have held := induction before
      have last : system.run s (moves ++ [move]) =
          system.next (system.run s moves) move :=
        System.run_append moves [move]
      rw [last]
      rcases system.next_cases (system.run s moves) move with
        ⟨call, is, same⟩ |
        ⟨task, conditions, call, request, rest, _, found, ready, same⟩ | same
      · rw [same]
        subst is
        exact starts moves call (admitted (.start call) (by simp)) held
      · rw [same]
        obtain ⟨stages, outlined⟩ := outline.run begins moves before
        obtain ⟨stage, staged, obeys⟩ := outlined.stage_of_task found
        exact steps moves task stage conditions call request rest before found
          ⟨outlined.inv, outlined.own staged, obeys.1, ready⟩ held
      · rw [same]
        exact held

theorem Throughout.at {τ : Type} {meets : List τ → τ → Prop}
    {later earlier : List τ} {turn : τ}
    (met : Throughout meets (later ++ turn :: earlier)) :
    meets earlier turn := by
  induction later with
  | nil => exact met.1
  | cons latest later induction => exact induction met.2

end MiryadCore
