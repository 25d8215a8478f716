import MiryadCore.Chat.AnswerSafety

/-!
# The ends that the turns tell

A turn whose session has been assembled is run by the engine, whose events go
to the hub; a turn whose assembly fails has no engine, and tells nothing.  What
a task of a turn has told follows from where it stands in its program.
-/

namespace MiryadCore.Chat.Bridging.Answers

open Interactive

variable {parts : Parts} {config : ChatConfig} {bridge : Bridge parts}
  {trace : Trace parts} {process : ℕ} {turn : Manager.Turn}

/-- The event of the engine is the end of its turn. -/
def concludes : EventKind → Bool
  | .turnEnded _ _ _ => true
  | _ => false

theorem isSome_ending (event : Event) :
    (ending (SessionEvent.of event)).isSome = concludes event.kind := by
  obtain ⟨session, at_, kind⟩ := event
  cases kind <;> rfl

/-- The turn tells its end to the subscribers of its session. -/
def tellsEnd (process : ℕ) (turn : Manager.Turn) : Passage parts → Bool
  | ⟨_, _, .manager process' label (.hub (.diffuse session event)), _⟩ =>
      process' = process && label = some turn && session = turn.session &&
        (ending event).isSome
  | _ => false

/-- How many ends the turn has told. -/
def told (process : ℕ) (turn : Manager.Turn) (trace : Trace parts) : ℕ :=
  trace.countP (tellsEnd process turn)

/-- The engine ends the turn that it runs, once. -/
def Concludes : Passage parts → Prop
  | ⟨_, _, .manager _ _ (.runTurn _ _), kinds⟩ => kinds.countP concludes = 1
  | _ => True

/-- The assembly of a turn does not fail. -/
def Assembled : Passage parts → Prop
  | ⟨_, _, .manager _ (some _) (.assemble _ _ _ _ _), .error _⟩ => False
  | _ => True

instance decidableConcludes : DecidablePred (@Concludes parts) := by
  intro passage
  unfold Concludes
  split <;> infer_instance

instance decidableAssembled : DecidablePred (@Assembled parts) := by
  intro passage
  unfold Assembled
  split <;> infer_instance

/-- The steps of a turn: it is assembled and run, and then tells as many ends
as are due. -/
inductive TurnStep where
  | begun
  | abandoned
  | telling (due : ℕ)
  | finished

namespace TurnStep

def Allows (turn : Manager.Turn) : TurnStep → Manager.Section → Prop
  | .begun, .hub _ => False
  | .begun, .release _ _ => False
  | .begun, _ => True
  | .telling due, .hub (.diffuse session event) =>
      session = turn.session ∧ (ending event).isSome.toNat ≤ due
  | .telling _, .hub _ => True
  | .telling _, .now => True
  | .telling due, .turnEnded _ _ => due = 0
  | .telling due, .release id permit =>
      due = 0 ∧ id = turn.session ∧ permit = turn.permit
  | .abandoned, .release id permit => id = turn.session ∧ permit = turn.permit
  | _, _ => False

def next : TurnStep → (request : Manager.Section) → request.Reply → TurnStep
  | .begun, .assemble _ _ _ _ _, .error _ => .abandoned
  | .begun, .runTurn _ _, kinds => .telling (kinds.countP concludes)
  | .telling due, .hub (.diffuse _ event), _ =>
      .telling (due - (ending event).isSome.toNat)
  | .telling _, .release _ _, _ => .finished
  | .abandoned, .release _ _, _ => .finished
  | step, _, _ => step

end TurnStep

/-- Where a task stands that is a turn. -/
inductive Progress where
  | apart
  | turning (process : ℕ) (turn : Manager.Turn) (step : TurnStep)

/-- The steps of the turns; the other calls are left apart. -/
def progress : Protocol Call Request Request.Reply (Except String Unit)
    Progress where
  start
    | .manager process (.turn turn) => .turning process turn .begun
    | _ => .apart
  allows
    | .apart, _ => True
    | .turning process turn step, request => ∃ section_,
        request = .manager process (some turn) section_ ∧
          step.Allows turn section_
  next
    | .turning process turn step, .manager _ _ section_, answer =>
        .turning process turn (step.next section_ answer)
    | stage, _, _ => stage
  ends _ _ _ := True

abbrev turnSections (process : ℕ) (turn : Manager.Turn) :=
  progress.comap (Request.manager process (some turn))

theorem apart_obeys {α : Type} (script : Script Request Request.Reply α) :
    script.Obeys progress .apart fun _ _ => True := by
  apply (Script.Only.obeys (script.only_of_all fun _ => trivial) ?_ ?_).mono
  · exact fun _ _ _ => trivial
  · exact fun _ _ => trivial
  · exact fun request _ answer => rfl

theorem section_obeys {α : Type} {step : TurnStep} {section_ : Manager.Section}
    {rest : section_.Reply → Script Manager.Section Manager.Section.Reply α}
    (allowed : step.Allows turn section_)
    (after : ∀ answer, (rest answer).Obeys (turnSections process turn)
      (.turning process turn (step.next section_ answer)) fun _ _ => True) :
    (Script.call section_ rest).Obeys (turnSections process turn)
      (.turning process turn step) fun _ _ => True :=
  ⟨⟨section_, rfl, allowed⟩, after⟩

/-- All events go to the hub before the turn ends. -/
theorem emitAll_tells {rest : Manager.Code Unit}
    (after : Script.Obeys (turnSections process turn) rest
      (.turning process turn (.telling 0)) fun _ _ => True)
    (kinds : List EventKind) :
    Script.Obeys (turnSections process turn)
      (Manager.emitAll turn.session kinds >>= fun _ => rest :
        Manager.Code Unit)
      (.turning process turn (.telling (kinds.countP concludes)))
      fun _ _ => True := by
  induction kinds with
  | nil => exact after
  | cons kind kinds induction =>
      refine section_obeys trivial fun at_ => section_obeys trivial fun _ => ?_
      have due : (ending (SessionEvent.of
          { session := turn.session, at_, kind })).isSome.toNat +
            kinds.countP concludes = (kind :: kinds).countP concludes := by
        rw [isSome_ending, List.countP_cons]
        cases concludes kind
        · exact Nat.zero_add _
        · exact Nat.add_comm _ _
      refine section_obeys ⟨rfl, by omega⟩ fun _ => ?_
      have less : TurnStep.next (.telling ((kind :: kinds).countP concludes))
          (.hub (.diffuse turn.session
            (SessionEvent.of { session := turn.session, at_, kind }))) () =
          .telling (kinds.countP concludes) := by
        show TurnStep.telling _ = _
        rw [← due, Nat.add_sub_cancel_left]
      exact less ▸ induction

theorem turn_obeys (process : ℕ) (turn : Manager.Turn) :
    Script.Obeys (turnSections process turn) (Manager.runTurn turn)
      (.turning process turn .begun) fun _ _ => True := by
  have tells : ∀ (handle : ℕ) (kinds : List EventKind),
      Script.Obeys (turnSections process turn)
        (Manager.emitAll turn.session kinds >>= fun _ => do
          Manager.get (.turnEnded turn handle)
          Manager.get (.release turn.session turn.permit) :
            Manager.Code Unit)
        (.turning process turn (.telling (kinds.countP concludes)))
        fun _ _ => True := by
    intro handle kinds
    apply emitAll_tells
    exact section_obeys rfl fun _ => section_obeys ⟨rfl, rfl, rfl⟩
      fun _ => trivial
  refine section_obeys trivial fun assembled => ?_
  cases assembled with
  | error error => exact section_obeys ⟨rfl, rfl⟩ fun _ => trivial
  | ok assembled =>
      refine section_obeys trivial fun _ => section_obeys trivial
        fun requested => ?_
      cases requested with
      | true =>
          exact section_obeys trivial fun _ => section_obeys trivial
            fun kinds => tells assembled.cancel kinds
      | false =>
          exact section_obeys trivial fun kinds => tells assembled.cancel kinds

theorem progress_obeys (call : Call) :
    (program config call).Obeys progress (progress.start call)
      (progress.ends call) := by
  cases call with
  | deliver process reads message => exact apart_obeys _
  | listen process reads subject id => exact apart_obeys _
  | manager process call =>
      cases call with
      | turn turn =>
          apply Script.Obeys.bind
          apply Script.obeys_lift
          apply Script.Obeys.bind
          exact turn_obeys process turn
      | _ => exact apart_obeys _

/-- The engine has run a turn, and ended it so many times. -/
def Ran (past : List (Passage parts)) (ends : ℕ) : Prop :=
  ∃ (task : ℕ) (before : Bridge parts) (process : ℕ)
    (label : Option Manager.Turn) (handle : ℕ) (text : String)
    (kinds : List EventKind),
    ⟨task, before, .manager process label (.runTurn handle text), kinds⟩ ∈
      past ∧ kinds.countP concludes = ends

def Unreleased (past : List (Passage parts)) : Prop :=
  ∀ passage ∈ past, releases passage.request = none

def Failed (past : List (Passage parts)) : Prop :=
  ∃ passage ∈ past, ¬ Assembled passage

/-- What the passages of a turn tell at a step. -/
def TurnStep.Tells (process : ℕ) (turn : Manager.Turn) :
    TurnStep → List (Passage parts) → Prop
  | .begun, past => Unreleased past ∧ told process turn past = 0
  | .abandoned, past => Unreleased past ∧ Failed past
  | .telling due, past =>
      Unreleased past ∧ Ran past (told process turn past + due)
  | .finished, past => Failed past ∨ Ran past (told process turn past)

def Progress.Tells (call : Call) : Progress → List (Passage parts) → Prop
  | .apart, _ => ∀ process turn, call ≠ .manager process (.turn turn)
  | .turning process turn step, past =>
      call = .manager process (.turn turn) ∧ step.Tells process turn past

theorem Ran.later {past : List (Passage parts)} {ends : ℕ}
    (ran : Ran past ends) (passage : Passage parts) :
    Ran (past ++ [passage]) ends := by
  obtain ⟨task, before, process, label, handle, text, kinds, member, same⟩ :=
    ran
  exact ⟨task, before, process, label, handle, text, kinds,
    List.mem_append_left _ member, same⟩

theorem Unreleased.later {past : List (Passage parts)}
    (unreleased : Unreleased past) {passage : Passage parts}
    (kept : releases passage.request = none) :
    Unreleased (past ++ [passage]) := by
  intro other member
  rcases List.mem_append.mp member with earlier | latest
  · exact unreleased other earlier
  · exact List.mem_singleton.mp latest ▸ kept

theorem Failed.later {past : List (Passage parts)} (failed : Failed past)
    (passage : Passage parts) : Failed (past ++ [passage]) := by
  obtain ⟨other, member, failed⟩ := failed
  exact ⟨other, List.mem_append_left _ member, failed⟩

theorem told_later (process : ℕ) (turn : Manager.Turn)
    (past : List (Passage parts)) (passage : Passage parts) :
    told process turn (past ++ [passage]) =
      told process turn past + (tellsEnd process turn passage).toNat := by
  unfold told
  rw [List.countP_append, List.countP_singleton]
  cases tellsEnd process turn passage <;> rfl

theorem told_silent {passage : Passage parts}
    (silent : tellsEnd process turn passage = false)
    (past : List (Passage parts)) :
    told process turn (past ++ [passage]) = told process turn past := by
  rw [told_later, silent]
  rfl

/-- Each section of a turn adds to what its passages tell. -/
theorem TurnStep.adds {step : TurnStep} {past : List (Passage parts)}
    {task : ℕ} {before : Bridge parts} {section_ : Manager.Section}
    {answer : section_.Reply} (tells : step.Tells process turn past)
    (allowed : step.Allows turn section_) :
    (step.next section_ answer).Tells process turn
      (past ++ [⟨task, before, .manager process (some turn) section_,
        answer⟩]) := by
  cases step with
  | finished => exact allowed.elim
  | begun =>
      obtain ⟨unreleased, silent⟩ := tells
      cases section_ with
      | hub request => exact allowed.elim
      | release id permit => exact allowed.elim
      | assemble caller kind agentId session token =>
          cases answer with
          | error error =>
              exact ⟨unreleased.later rfl, _,
                List.mem_append_right _ List.mem_cons_self, id⟩
          | ok assembled =>
              exact ⟨unreleased.later rfl, (told_silent rfl past).trans silent⟩
      | runTurn handle text =>
          refine ⟨unreleased.later rfl, task, before, process, some turn,
            handle, text, answer, List.mem_append_right _ List.mem_cons_self,
            ?_⟩
          rw [told_silent rfl, silent, Nat.zero_add]
      | _ => exact ⟨unreleased.later rfl, (told_silent rfl past).trans silent⟩
  | abandoned =>
      obtain ⟨unreleased, failed⟩ := tells
      cases section_ with
      | release id permit => exact .inl (failed.later _)
      | _ => exact allowed.elim
  | telling due =>
      obtain ⟨unreleased, ran⟩ := tells
      cases section_ with
      | release id permit =>
          obtain ⟨rfl, _⟩ := allowed
          refine .inr ?_
          rw [told_silent rfl]
          exact ran.later _
      | now =>
          refine ⟨unreleased.later rfl, ?_⟩
          rw [told_silent rfl]
          exact ran.later _
      | turnEnded other handle =>
          refine ⟨unreleased.later rfl, ?_⟩
          rw [told_silent rfl]
          exact ran.later _
      | hub request =>
          cases request with
          | diffuse session event =>
              obtain ⟨rfl, enough⟩ := allowed
              refine ⟨unreleased.later rfl, ?_⟩
              have tells : tellsEnd process turn
                  (⟨task, before, .manager process (some turn)
                    (.hub (.diffuse turn.session event)), answer⟩ :
                      Passage parts) = (ending event).isSome := by
                simp [tellsEnd]
              have same : told process turn past +
                  (ending event).isSome.toNat +
                    (due - (ending event).isSome.toNat) =
                  told process turn past + due := by omega
              rw [told_later, tells, same]
              exact ran.later _
          | _ =>
              refine ⟨unreleased.later rfl, ?_⟩
              rw [told_silent rfl]
              exact ran.later _
      | _ => exact allowed.elim

/-- Only a turn tells events of its session, and gives back its permit. -/
def Belongs (call : Call) : Request → Prop
  | .manager process label (.hub (.diffuse _ _)) => ∃ turn,
      call = .manager process (.turn turn) ∧ label = some turn
  | .manager process _ (.release _ permit) => ∃ turn : Manager.Turn,
      call = .manager process (.turn turn) ∧ permit = turn.permit
  | _ => True

theorem turning_of_next {phase : Phase} {request : Request}
    {answer : request.Reply}
    (same : phase.next request answer = .turning process turn) :
    phase = .turning process turn := by
  unfold Phase.next at same
  split at same
  case h_6 =>
    rename Option MatrixMessage => message
    cases message <;> cases same
  case h_8 =>
    rename Option (MatrixMessage × Subscription) => watch
    cases watch <;> cases same
  case h_9 =>
    rename SessionEvent => event
    cases tells : ending event <;> rw [tells] at same <;> cases same
  all_goals cases same
  rfl

theorem belongs_of_phase {call : Call} {phase : Phase} {request : Request}
    (started : ∀ process turn, phase = .turning process turn →
      call = .manager process (.turn turn))
    (allowed : phase.Allows request) : Belongs call request := by
  cases request with
  | manager process label section_ =>
      cases section_ with
      | release id permit =>
          obtain ⟨turn, phase, _, same⟩ := phase_of_release allowed
          exact ⟨turn, started process turn phase, same⟩
      | hub request =>
          cases request with
          | diffuse session event =>
              obtain ⟨turn, phase, same, _⟩ := phase_of_diffuse allowed
              exact ⟨turn, started process turn phase, same⟩
          | _ => trivial
      | _ => trivial
  | _ => trivial

section Runs

variable {shared : Bridge parts} {moves : List (Move Call Conditions)}
  {task : ℕ} {call : Call}
  {script : Script Request Request.Reply (Except String Unit)}

/-- What the passages of a task tell of its call. -/
theorem belongs_of_task
    (found : ((system parts config).run shared moves).tasks[task]? =
      some (call, script)) :
    ∀ passage ∈ ((system parts config).run shared moves).turns task,
      Belongs call passage.request := by
  let tells (call : Call) (stage : Stage) (past : Trace parts) : Prop :=
    (∀ process turn, stage.phase = .turning process turn →
      call = .manager process (.turn turn)) ∧
    ∀ passage ∈ past, Belongs call passage.request
  have begins : ∀ call, tells call (exchanges.start call) [] := by
    intro call
    refine ⟨?_, fun passage member => by cases member⟩
    intro process turn same
    cases call with
    | deliver process reads message => cases same
    | listen process reads subject id => cases same
    | manager process call =>
        cases call <;> cases same
        rfl
  have adds : ∀ call stage past passage, tells call stage past →
      exchanges.allows stage passage.request →
      tells call (exchanges.next stage passage.request passage.answer)
        (past ++ [passage]) := by
    intro call stage past passage told allowed
    obtain ⟨started, belongs⟩ := told
    refine ⟨fun process turn same => started process turn
      (turning_of_next same), ?_⟩
    intro other member
    rcases List.mem_append.mp member with earlier | latest
    · exact belongs other earlier
    · exact List.mem_singleton.mp latest ▸
        belongs_of_phase started allowed.1
  obtain ⟨stage, told, _⟩ :=
    System.told exchanges tells program_obeys begins adds found
  exact told.2

/-- What the passages of a turn tell of its step. -/
theorem progress_of_task
    (found : ((system parts config).run shared moves).tasks[task]? =
      some (call, script)) :
    ∃ stage : Progress,
      stage.Tells call (((system parts config).run shared moves).turns task) := by
  have begins : ∀ call, Progress.Tells call (progress.start call)
      ([] : Trace parts) := by
    intro call
    cases call with
    | deliver process reads message => exact fun _ _ same => by cases same
    | listen process reads subject id => exact fun _ _ same => by cases same
    | manager process call =>
        cases call with
        | turn turn =>
            exact ⟨rfl, fun _ member => (by cases member), rfl⟩
        | _ => exact fun _ _ same => by cases same
  have adds : ∀ call stage (past : Trace parts) passage,
      Progress.Tells call stage past →
      progress.allows stage passage.request →
      Progress.Tells call
        (progress.next stage passage.request passage.answer)
        (past ++ [passage]) := by
    intro call stage past passage told allowed
    obtain ⟨task, before, request, answer⟩ := passage
    cases stage with
    | apart => cases request <;> exact told
    | turning process turn step =>
        obtain ⟨section_, rfl, allowed⟩ := allowed
        exact ⟨told.1, TurnStep.adds told.2 allowed⟩
  obtain ⟨stage, told, _⟩ := System.told progress
    (fun call stage past => Progress.Tells call stage past) progress_obeys
    begins adds found
  exact ⟨stage, told⟩

/-- The turn that a call is. -/
def turnCall : Call → Option (ℕ × Manager.Turn)
  | .manager process (.turn turn) => some (process, turn)
  | _ => none

abbrev Tasks : Type :=
  List (Call × Script Request Request.Reply (Except String Unit))

/-- The turns that have a task. -/
def tasked (tasks : Tasks) : List (ℕ × Manager.Turn) :=
  tasks.filterMap fun entry => turnCall entry.1

theorem tasked_append (tasks : Tasks) (call : Call)
    (script : Script Request Request.Reply (Except String Unit)) :
    tasked (tasks ++ [(call, script)]) =
      tasked tasks ++ (turnCall call).toList := by
  unfold tasked
  rw [List.filterMap_append]
  cases turned : turnCall call with
  | none => simp [turned]
  | some entry => simp [turned]

/-- A task that goes on is that of the same turn. -/
theorem tasked_set {tasks : Tasks} {task : ℕ} {call : Call}
    {script : Script Request Request.Reply (Except String Unit)}
    (found : tasks[task]? = some (call, script))
    (next : Script Request Request.Reply (Except String Unit)) :
    tasked (tasks.set task (call, next)) = tasked tasks := by
  have same : (tasks.set task (call, next)).map Prod.fst =
      tasks.map Prod.fst := by
    apply List.ext_getElem?
    intro other
    rw [List.getElem?_map, List.getElem?_map, List.getElem?_set]
    split
    next here =>
      subst here
      rw [found, if_pos (List.getElem?_eq_some_iff.mp found).1]
      rfl
    next => rfl
  have calls : ∀ tasks : Tasks,
      tasked tasks = (tasks.map Prod.fst).filterMap turnCall := by
    intro tasks
    rw [List.filterMap_map]
    rfl
  rw [calls, same, ← calls]

/-- Each turn has one task, which was started by its spawn. -/
structure TurnTasks (tasks : Tasks) (trace : Trace parts) : Prop where
  spawned : ∀ entry ∈ tasked tasks, Spawned trace entry.1 entry.2
  nodup : (tasked tasks).Nodup

theorem turnTasks_of_run (sound : Sound shared [])
    (outside : ∀ move ∈ moves, move.Admitted Outside) :
    TurnTasks ((system parts config).run shared moves).tasks
      ((system parts config).run shared moves).trace := by
  apply exchanges_outline.run_holds sound
    (fun pool => TurnTasks pool.tasks pool.trace)
  case idle => exact ⟨fun entry member => (by cases member), List.nodup_nil⟩
  case starts =>
    intro moves call started turnTasks
    have none : turnCall call = none := by
      cases call with
      | deliver process reads message => rfl
      | listen process reads subject id => rfl
      | manager process call =>
          cases call with
          | turn turn => exact started.elim
          | _ => rfl
    refine ⟨?_, ?_⟩
    · rw [tasked_append, none, Option.toList_none, List.append_nil]
      exact turnTasks.spawned
    · rw [tasked_append, none, Option.toList_none, List.append_nil]
      exact turnTasks.nodup
  case steps =>
    intro moves task stage conditions call request rest _ found asks turnTasks
    dsimp only
    cases spawns : (system parts config).spawns request with
    | none =>
        rw [Option.map_none, Option.toList_none, List.append_nil]
        refine ⟨?_, ?_⟩
        · rw [tasked_set found]
          exact fun entry member => (turnTasks.spawned entry member).cons
        · rw [tasked_set found]
          exact turnTasks.nodup
    | some started =>
        obtain ⟨process, label, turn, rfl, rfl⟩ := spawns_cases spawns
        obtain ⟨watch, phase⟩ := phase_of_spawn asks.allowed.1
        obtain ⟨_, unspawned, _⟩ := phase ▸ asks.own.phase
        rw [Option.map_some, Option.toList_some]
        refine ⟨?_, ?_⟩
        · rw [tasked_append, tasked_set found]
          intro entry member
          rcases List.mem_append.mp member with earlier | latest
          · exact (turnTasks.spawned entry earlier).cons
          · obtain rfl := List.mem_singleton.mp latest
            exact ⟨task, _, label, List.mem_cons_self⟩
        · rw [tasked_append, tasked_set found]
          apply turnTasks.nodup.append (List.nodup_singleton _)
          rw [List.disjoint_singleton]
          intro member
          exact unspawned turn (turnTasks.spawned _ member) rfl
  case admitted => exact outside

/-- Two tasks of one turn are the same. -/
theorem TurnTasks.unique {tasks : Tasks} {other : ℕ}
    {otherScript : Script Request Request.Reply (Except String Unit)}
    (turnTasks : TurnTasks tasks trace)
    (found : tasks[task]? = some (.manager process (.turn turn), script))
    (also : tasks[other]? =
      some (.manager process (.turn turn), otherScript)) : task = other := by
  have apart := List.pairwise_filterMap.mp turnTasks.nodup
  rw [List.pairwise_iff_getElem] at apart
  obtain ⟨inside, same⟩ := List.getElem?_eq_some_iff.mp found
  obtain ⟨insideOther, sameOther⟩ := List.getElem?_eq_some_iff.mp also
  rcases Nat.lt_trichotomy task other with before | equal | after
  · refine (apart task other inside insideOther before (process, turn) ?_
      (process, turn) ?_ rfl).elim
    · rw [same]
      rfl
    · rw [sameOther]
      rfl
  · exact equal
  · refine (apart other task insideOther inside after (process, turn) ?_
      (process, turn) ?_ rfl).elim
    · rw [sameOther]
      rfl
    · rw [same]
      rfl

theorem tellsEnd_request {passage : Passage parts}
    (tells : tellsEnd process turn passage = true) :
    ∃ event, (ending event).isSome = true ∧ passage.request =
      .manager process (some turn) (.hub (.diffuse turn.session event)) := by
  obtain ⟨task, before, request, answer⟩ := passage
  unfold tellsEnd at tells
  split at tells
  next same =>
    cases same
    simp only [Bool.and_eq_true, decide_eq_true_eq] at tells
    obtain ⟨⟨⟨rfl, rfl⟩, rfl⟩, ends_⟩ := tells
    exact ⟨_, ends_, rfl⟩
  next => cases tells

theorem releases_request {request : Request} {permit : ℕ}
    (same : releases request = some (process, permit)) :
    ∃ label id, request = .manager process label (.release id permit) := by
  cases request with
  | manager process' label section_ =>
      cases section_ with
      | release id permit' =>
          cases same
          exact ⟨label, id, rfl⟩
      | _ => cases same
  | _ => cases same

theorem task_of_passage {passage : Passage parts}
    (member : passage ∈ ((system parts config).run shared moves).trace) :
    ∃ entry, ((system parts config).run shared moves).tasks[passage.task]? =
        some entry ∧
      passage ∈ ((system parts config).run shared moves).turns passage.task :=
  ⟨_, List.getElem?_eq_getElem (System.task_lt_of_trace moves passage member),
    Pool.mem_turns.mpr ⟨member, rfl⟩⟩

/-- The turn that gave back a permit has the task that did so. -/
theorem task_of_released (sound : Sound shared [])
    (outside : ∀ move ∈ moves, move.Admitted Outside)
    (spawned : Spawned ((system parts config).run shared moves).trace process
      turn)
    (released : Released ((system parts config).run shared moves).trace process
      turn.permit) :
    ∃ task script, ((system parts config).run shared moves).tasks[task]? =
        some (.manager process (.turn turn), script) ∧
      ¬ Unreleased (((system parts config).run shared moves).turns task) := by
  obtain ⟨passage, member, same⟩ := released
  obtain ⟨label, id, request⟩ := releases_request same
  obtain ⟨⟨call, script⟩, found, own⟩ := task_of_passage member
  have belongs := belongs_of_task found passage own
  rw [request] at belongs
  obtain ⟨other, rfl, permit⟩ := belongs
  have spawnedOther : Spawned ((system parts config).run shared moves).trace
      process other :=
    (turnTasks_of_run sound outside).spawned (process, other)
      (List.mem_filterMap.mpr ⟨_, List.mem_of_getElem? found, rfl⟩)
  obtain ⟨stages, outlined⟩ := exchanges_outline.run sound moves outside
  have sameTurn : other = turn :=
    outlined.inv.same spawnedOther spawned permit.symm
  subst sameTurn
  refine ⟨passage.task, script, found, fun unreleased => ?_⟩
  rw [unreleased passage own] at same
  cases same

/-- All ends of a turn are told by its task. -/
theorem told_of_task (sound : Sound shared [])
    (outside : ∀ move ∈ moves, move.Admitted Outside)
    (found : ((system parts config).run shared moves).tasks[task]? =
      some (.manager process (.turn turn), script)) :
    told process turn ((system parts config).run shared moves).trace =
      told process turn
        (((system parts config).run shared moves).turns task) := by
  have mine : ∀ passage ∈ ((system parts config).run shared moves).trace,
      tellsEnd process turn passage = true → passage.task = task := by
    intro passage member tells
    obtain ⟨event, _, request⟩ := tellsEnd_request tells
    obtain ⟨⟨call, other⟩, foundOther, own⟩ := task_of_passage member
    have belongs := belongs_of_task foundOther passage own
    rw [request] at belongs
    obtain ⟨turn', rfl, same⟩ := belongs
    cases same
    exact (turnTasks_of_run sound outside).unique foundOther found
  unfold told Pool.turns
  rw [List.countP_reverse, List.countP_filter]
  apply List.countP_congr
  intro passage member
  rw [Bool.and_eq_true, decide_eq_true_eq]
  exact ⟨fun tells => ⟨tells, mine passage member tells⟩, fun both => both.1⟩

/-- A turn that is over has told one end, unless its assembly failed. -/
theorem told_of_released (sound : Sound shared [])
    (outside : ∀ move ∈ moves, move.Admitted Outside)
    (concluded : ∀ passage ∈ ((system parts config).run shared moves).trace,
      Concludes passage)
    (assembled : ∀ passage ∈ ((system parts config).run shared moves).trace,
      Assembled passage)
    (spawned : Spawned ((system parts config).run shared moves).trace process
      turn)
    (released : Released ((system parts config).run shared moves).trace process
      turn.permit) :
    told process turn ((system parts config).run shared moves).trace = 1 := by
  obtain ⟨task, script, found, ends⟩ :=
    task_of_released sound outside spawned released
  rw [told_of_task sound outside found]
  obtain ⟨stage, tells⟩ := progress_of_task found
  cases stage with
  | apart => exact (tells process turn rfl).elim
  | turning process' turn' step =>
      obtain ⟨same, tells⟩ := tells
      cases same
      cases step with
      | begun => exact (ends tells.1).elim
      | abandoned => exact (ends tells.1).elim
      | telling due => exact (ends tells.1).elim
      | finished =>
          rcases tells with failed | ran
          · obtain ⟨passage, member, failed⟩ := failed
            exact (failed (assembled passage
              (Pool.mem_turns.mp member).1)).elim
          · obtain ⟨_, _, _, _, _, _, kinds, member, same⟩ := ran
            rw [← same]
            exact concluded _ (Pool.mem_turns.mp member).1

end Runs

end MiryadCore.Chat.Bridging.Answers
