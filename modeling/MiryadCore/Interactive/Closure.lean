import MiryadCore.Interactive.ManagerProtocol

/-!
# Closed sessions

A closed session has no entry in the table and no turn of it begins until it is
resumed, exactly as long as no close of a session falls between the moment at
which a `send` found it open and the sections in which it takes its permit and
touches the table, nor between the two sections of a `resume`.
-/

namespace MiryadCore.Interactive.Manager

variable {parts : Parts}

/-- The last mark on the session says that it is closed. -/
def closedMark (id : SessionId) : Trace parts → Bool
  | [] => false
  | ⟨_, _, .closeTable other, _⟩ :: earlier =>
      if other = id then true else closedMark id earlier
  | ⟨_, _, .reopen other, _⟩ :: earlier =>
      if other = id then false else closedMark id earlier
  | _ :: earlier => closedMark id earlier

/-- The session was closed, and not reopened, after the task last looked
whether it is. -/
def closedSince (task : ℕ) (id : SessionId) : Trace parts → Bool
  | [] => false
  | ⟨_, _, .closeTable other, _⟩ :: earlier =>
      if other = id then true else closedSince task id earlier
  | ⟨_, _, .reopen other, _⟩ :: earlier =>
      if other = id then false else closedSince task id earlier
  | ⟨turn, _, .isClosed other, _⟩ :: earlier =>
      if turn = task ∧ other = id then false else closedSince task id earlier
  | _ :: earlier => closedSince task id earlier

/-- A permit is taken, or the table touched, for a session that nobody closed
since the task looked. -/
def StillOpen (earlier : Trace parts) (passage : Passage parts) : Prop :=
  match passage with
  | ⟨task, _, .tryBegin id, .ok _⟩ => closedSince task id earlier = false
  | ⟨task, _, .touch _ id _, _⟩ => closedSince task id earlier = false
  | _ => True

/-- A turn of the session begins. -/
def Section.Begins (id : SessionId) : (request : Section) → request.Reply → Prop
  | .tryBegin other, .ok _ => other = id
  | _, _ => False

/-- A closed session is not in the table, and none of its turns began while it
was closed. -/
structure Shut (manager : Manager parts) (trace : Trace parts) : Prop where
  absent : ∀ id, manager.table.isClosed id = true →
    manager.table.get id = none
  refused : ∀ passage ∈ trace, ∀ id,
    passage.request.Begins id passage.answer →
    passage.before.table.isClosed id = false

section Trace

variable {task : ℕ} {id : SessionId} {trace : Trace parts}
  {passage : Passage parts}

/-- What the task knows: a session that nobody closed since it looked has no
mark of closure. -/
def Trusts (task : ℕ) (id : SessionId) (trace : Trace parts) : Prop :=
  closedSince task id trace = false → closedMark id trace = false

theorem closedMark_of_closedSince (since : closedSince task id trace = true) :
    closedMark id trace = true := by
  induction trace with
  | nil => cases since
  | cons passage earlier induction =>
      obtain ⟨turn, before, request, answer⟩ := passage
      cases request with
      | closeTable other =>
          simp only [closedSince, closedMark] at since ⊢
          split
          next => rfl
          next different =>
            rw [if_neg different] at since
            exact induction since
      | reopen other =>
          simp only [closedSince, closedMark] at since ⊢
          split at since
          next => cases since
          next different =>
            rw [if_neg different]
            exact induction since
      | isClosed other =>
          simp only [closedSince] at since
          split at since
          next => cases since
          next => exact induction since
      | _ => exact induction since

theorem closedSince_of_lt (past : ∀ past ∈ trace, past.task < task) :
    closedSince task id trace = closedMark id trace := by
  induction trace with
  | nil => rfl
  | cons passage earlier induction =>
      have rest := induction fun passage member =>
        past passage (List.mem_cons_of_mem _ member)
      have older := past passage List.mem_cons_self
      obtain ⟨turn, before, request, answer⟩ := passage
      cases request with
      | closeTable other => simp only [closedSince, closedMark, rest]
      | reopen other => simp only [closedSince, closedMark, rest]
      | isClosed other =>
          have different : ¬(turn = task ∧ other = id) := by
            intro same
            exact Nat.ne_of_lt older same.1
          simp only [closedSince, closedMark, if_neg different]
          exact rest
      | _ => exact rest

/-- Only a look of its own may change what a task trusts. -/
theorem Trusts.cons (trusts : Trusts task id trace)
    (looks : passage.task ≠ task ∨ passage.request ≠ .isClosed id) :
    Trusts task id (passage :: trace) := by
  obtain ⟨turn, before, request, answer⟩ := passage
  intro since
  cases request with
  | closeTable other =>
      simp only [closedSince, closedMark] at since ⊢
      split at since
      next => cases since
      next different =>
        rw [if_neg different]
        exact trusts since
  | reopen other =>
      simp only [closedSince, closedMark] at since ⊢
      split
      next => rfl
      next different =>
        rw [if_neg different] at since
        exact trusts since
  | isClosed other =>
      have different : ¬(turn = task ∧ other = id) := by
        intro same
        obtain ⟨sameTask, sameId⟩ := same
        subst sameId
        rcases looks with elsewhere | elsewhere
        · exact elsewhere sameTask
        · exact elsewhere rfl
      simp only [closedSince, if_neg different] at since
      exact trusts since
  | _ => exact trusts since

end Trace

/-- The table has the last mark of each session. -/
def Marked (manager : Manager parts) (trace : Trace parts) : Prop :=
  ∀ id, manager.table.isClosed id = closedMark id trace

/-- What a task knows at each stage of its call. -/
def trust (task : ℕ) : Stage → Manager parts → Trace parts → Prop
  | .opening, _, trace => ∀ id, Trusts task id trace
  | .checked id, _, trace => Trusts task id trace
  | .permitted id _, _, trace => Trusts task id trace
  | .reopened id, _, trace => Trusts task id trace
  | _, _, _ => True

theorem exec_table (conditions : Conditions) (manager : Manager parts)
    {request : Section} (notTouch : ∀ subject id now, request ≠ .touch subject id now)
    (notClose : ∀ id, request ≠ .closeTable id)
    (notReopen : ∀ id, request ≠ .reopen id) :
    (exec conditions manager request).2.table = manager.table := by
  cases request with
  | touch subject id now => exact absurd rfl (notTouch subject id now)
  | closeTable id => exact absurd rfl (notClose id)
  | reopen id => exact absurd rfl (notReopen id)
  | assemble caller kind agentId session token =>
      simp only [exec]
      split <;> rfl
  | tryBegin id =>
      simp only [exec, tryBegin]
      split <;> rfl
  | signal entry =>
      simp only [exec, signalEntry]
      split <;> rfl
  | _ => rfl

theorem isClosed_touch (manager : Manager parts) (subject : String)
    (id other : SessionId) (now : ℕ) :
    (manager.sweepTouch subject id now).2.table.isClosed other =
      manager.table.isClosed other := by
  unfold sweepTouch touchTable
  split
  next => rfl
  next =>
    simp only [Table.insert]
    split <;> rfl

theorem get_touch_self (manager : Manager parts) (subject : String)
    (id : SessionId) (now : ℕ) :
    (manager.sweepTouch subject id now).2.table.get id ≠ none := by
  unfold sweepTouch touchTable
  split
  next found =>
    dsimp only
    rw [found]
    exact Option.some_ne_none _
  next => exact Table.get_insert_self _ _ _

theorem get_touch_of_ne {manager : Manager parts} {id other : SessionId}
    (different : other ≠ id) (subject : String) (now : ℕ)
    (absent : manager.table.get other = none) :
    (manager.sweepTouch subject id now).2.table.get other = none := by
  have swept : (manager.sweep now).table.get other = none :=
    Table.get_retain_eq_none absent
  unfold sweepTouch touchTable
  split
  next => exact swept
  next =>
    dsimp only
    rw [Table.get_insert_of_ne different]
    exact swept

theorem Marked.exec {manager : Manager parts} {trace : Trace parts}
    (marked : Marked manager trace) (task : ℕ) (conditions : Conditions)
    (request : Section) :
    Marked (exec conditions manager request).2
      (⟨task, manager, request, (Manager.exec conditions manager request).1⟩ ::
        trace) := by
  intro id
  by_cases touches : ∃ subject id now, request = .touch subject id now
  · obtain ⟨subject, other, now, same⟩ := touches
    subst same
    exact (isClosed_touch manager subject other id now).trans (marked id)
  by_cases closes : ∃ id, request = .closeTable id
  · obtain ⟨other, same⟩ := closes
    subst same
    simp only [closedMark]
    split
    next sameId =>
      subst sameId
      exact Function.update_self _ _ _
    next different =>
      exact (Function.update_of_ne (Ne.symm different) _ _).trans (marked id)
  by_cases reopens : ∃ id, request = .reopen id
  · obtain ⟨other, same⟩ := reopens
    subst same
    simp only [closedMark]
    split
    next sameId =>
      subst sameId
      exact Function.update_self _ _ _
    next different =>
      exact (Function.update_of_ne (Ne.symm different) _ _).trans (marked id)
  have same := exec_table conditions manager
    (fun subject id now is => touches ⟨subject, id, now, is⟩)
    (fun id is => closes ⟨id, is⟩) (fun id is => reopens ⟨id, is⟩)
  rw [same, marked id]
  cases request with
  | closeTable other => exact absurd ⟨other, rfl⟩ closes
  | reopen other => exact absurd ⟨other, rfl⟩ reopens
  | _ => rfl

theorem trusts_of_touch {task : ℕ} {stage : Stage} {manager : Manager parts}
    {trace : Trace parts} {subject : String} {id : SessionId} {now : ℕ}
    (allowed : protocol.allows stage (.touch subject id now))
    (trusted : trust task stage manager trace) : Trusts task id trace := by
  rcases stage_of_touch allowed with opening | permitted | reopened
  · subst opening
    exact trusted id
  · obtain ⟨permit, same⟩ := permitted
    subst same
    exact trusted
  · subst reopened
    exact trusted

theorem trusts_of_tryBegin {task : ℕ} {stage : Stage} {manager : Manager parts}
    {trace : Trace parts} {id : SessionId}
    (allowed : protocol.allows stage (.tryBegin id))
    (trusted : trust task stage manager trace) : Trusts task id trace := by
  rw [stage_of_tryBegin allowed] at trusted
  exact trusted

theorem trust_cons {task : ℕ} {stage : Stage} {manager after : Manager parts}
    {trace : Trace parts} {passage : Passage parts}
    (trusted : trust task stage manager trace)
    (looks : passage.task ≠ task ∨ ∀ id, passage.request ≠ .isClosed id) :
    trust task stage after (passage :: trace) := by
  have keeps : ∀ id, Trusts task id trace →
      Trusts task id (passage :: trace) := by
    intro id trusts
    rcases looks with elsewhere | elsewhere
    · exact trusts.cons (.inl elsewhere)
    · exact trusts.cons (.inr (elsewhere id))
  cases stage with
  | opening => exact fun id => keeps id (trusted id)
  | checked id => exact keeps id trusted
  | permitted id permit => exact keeps id trusted
  | reopened id => exact keeps id trusted
  | _ => trivial

/-- What the task trusts after a section of its own. -/
theorem trust_next {task : ℕ} {stage : Stage} {manager : Manager parts}
    {trace : Trace parts} {request : Section} (conditions : Conditions)
    (marked : Marked manager trace) (trusted : trust task stage manager trace)
    (allowed : protocol.allows stage request) :
    trust task (stage.next request (exec conditions manager request).1)
      (exec conditions manager request).2
      (⟨task, manager, request, (exec conditions manager request).1⟩ ::
        trace) := by
  rcases allowed with passive | active
  · rw [next_passive stage passive]
    apply trust_cons trusted
    right
    intro id same
    dsimp only at same
    rw [same] at passive
    exact passive
  · cases stage with
    | free =>
        cases request with
        | isClosed id =>
            cases closed : manager.table.isClosed id with
            | true =>
                simp only [exec, closed]
                trivial
            | false =>
                simp only [exec, closed]
                intro _
                exact (marked id).symm.trans closed
        | isActive id =>
            simp only [Stage.next]
            split <;> trivial
        | assemble caller kind agentId session token => trivial
        | reopen id =>
            intro _
            exact if_pos rfl
        | closeTable id => trivial
        | _ => exact active.elim
    | opening =>
        cases request with
        | touch subject id now => exact trust_cons trusted (.inr (by simp))
        | _ => exact active.elim
    | checked id =>
        cases request with
        | tryBegin other =>
            cases given : (exec conditions manager (.tryBegin other)).1 with
            | ok permit =>
                cases active
                exact Trusts.cons trusted (.inr (by simp))
            | error error => trivial
        | _ => exact active.elim
    | begun id permit entry =>
        cases request with
        | assemble caller kind agentId session token =>
            cases given : (exec conditions manager
                (.assemble caller kind agentId session token)).1 with
            | ok assembled => trivial
            | error error => trivial
        | _ => exact active.elim
    | saw id =>
        cases request with
        | entryOf other =>
            cases given : (exec conditions manager (.entryOf other)).1 with
            | some entry => trivial
            | none => trivial
        | _ => exact active.elim
    | signalled id =>
        cases request with
        | closeTable other => trivial
        | _ => exact active.elim
    | permitted id permit =>
        cases request with
        | touch subject other now => trivial
        | _ => exact active.elim
    | touched id permit entry =>
        cases request with
        | forget other => trivial
        | _ => exact active.elim
    | forgotten id permit entry =>
        cases request with
        | lower other => trivial
        | _ => exact active.elim
    | lowered id permit entry =>
        cases request with
        | spawn turn => trivial
        | _ => exact active.elim
    | assembled id permit entry handle =>
        cases request with
        | publish other given => trivial
        | _ => exact active.elim
    | published id permit entry handle =>
        cases request with
        | requested other => trivial
        | _ => exact active.elim
    | asked id permit entry handle requested =>
        cases request with
        | cancelHandle other => trivial
        | runTurn other text => trivial
        | _ => exact active.elim
    | running id permit entry handle =>
        cases request with
        | runTurn other text => trivial
        | turnEnded turn other => trivial
        | _ => exact active.elim
    | finished id permit =>
        cases request with
        | release other given => trivial
        | _ => exact active.elim
    | signalling id entry =>
        cases request with
        | signal other => trivial
        | _ => exact active.elim
    | reopened id =>
        cases request with
        | touch subject other now => trivial
        | _ => exact active.elim

namespace Shut

variable {manager : Manager parts} {trace : Trace parts} {task : ℕ}

theorem absent_touch (shut : Shut manager trace) {id : SessionId}
    (open_ : manager.table.isClosed id = false) (subject : String) (now : ℕ)
    (other : SessionId)
    (closed : (manager.sweepTouch subject id now).2.table.isClosed other = true) :
    (manager.sweepTouch subject id now).2.table.get other = none := by
  rw [isClosed_touch] at closed
  have different : other ≠ id := by
    intro same
    rw [same, open_] at closed
    cases closed
  exact get_touch_of_ne different subject now (shut.absent other closed)

theorem absent_closeTable (shut : Shut manager trace) (id other : SessionId)
    (closed : (manager.table.close id).isClosed other = true) :
    (manager.table.close id).get other = none := by
  by_cases same : other = id
  · subst same
    exact Table.get_close_self manager.table other
  · have before : manager.table.isClosed other = true := by
      rw [← closed]
      exact (Function.update_of_ne same _ _).symm
    exact Table.get_close_eq_none id (shut.absent other before)

theorem absent_reopen (shut : Shut manager trace) (id other : SessionId)
    (closed : (manager.table.reopen id).isClosed other = true) :
    (manager.table.reopen id).get other = none := by
  have different : other ≠ id := by
    intro same
    subst same
    have gone : (manager.table.reopen other).isClosed other = false :=
      Function.update_self _ _ _
    rw [gone] at closed
    cases closed
  have before : manager.table.isClosed other = true := by
    rw [← closed]
    exact (Function.update_of_ne different _ _).symm
  exact shut.absent other before

theorem exec (shut : Shut manager trace) (marked : Marked manager trace)
    {stage : Stage} {request : Section} (conditions : Conditions)
    (allowed : protocol.allows stage request)
    (trusted : trust task stage manager trace)
    (still : StillOpen trace ⟨task, manager, request,
      (exec conditions manager request).1⟩) :
    Shut (Manager.exec conditions manager request).2
      (⟨task, manager, request, (Manager.exec conditions manager request).1⟩ ::
        trace) := by
  constructor
  · intro other closed
    by_cases touches : ∃ subject id now, request = .touch subject id now
    · obtain ⟨subject, id, now, same⟩ := touches
      subst same
      have open_ : manager.table.isClosed id = false :=
        (marked id).trans (trusts_of_touch allowed trusted still)
      exact shut.absent_touch open_ subject now other closed
    by_cases closes : ∃ id, request = .closeTable id
    · obtain ⟨id, same⟩ := closes
      subst same
      exact shut.absent_closeTable id other closed
    by_cases reopens : ∃ id, request = .reopen id
    · obtain ⟨id, same⟩ := reopens
      subst same
      exact shut.absent_reopen id other closed
    have same := exec_table conditions manager
      (fun subject id now is => touches ⟨subject, id, now, is⟩)
      (fun id is => closes ⟨id, is⟩) (fun id is => reopens ⟨id, is⟩)
    rw [same] at closed ⊢
    exact shut.absent other closed
  · intro passage member id begins
    rcases List.mem_cons.mp member with latest | earlier
    · subst latest
      dsimp only at begins ⊢
      cases request with
      | tryBegin other =>
          cases given : (Manager.exec conditions manager (.tryBegin other)).1 with
          | error error =>
              rw [given] at begins
              exact begins.elim
          | ok permit =>
              rw [given] at begins still
              cases begins
              exact (marked id).trans
                (trusts_of_tryBegin allowed trusted still)
      | _ => exact begins.elim
    · exact shut.refused passage earlier id begins

end Shut

/-- What holds in every pool of calls, and while the sessions are still open. -/
theorem closure_outline (parts : Parts) (limits : Limits) :
    Outline (system parts limits) protocol (fun _ => True)
      (fun _ => (none : Option Unit))
      (fun manager trace => Marked manager trace ∧
        (Throughout StillOpen trace → Shut manager trace))
      trust where
  obeys := program_obeys limits
  begins call task manager trace _ _ past := by
    cases call with
    | open_ subject context agent =>
        intro id since
        rw [← closedSince_of_lt past]
        exact since
    | _ => trivial
  bare _ _ := rfl
  keeps {task stage manager trace request} turn conditions :=
    ⟨turn.inv.1.exec task conditions request, fun still =>
      (turn.inv.2 still.2).exec turn.inv.1 conditions turn.allowed turn.own
        still.1⟩
  reaches {task stage manager trace request} turn conditions :=
    trust_next conditions turn.inv.1 turn.own turn.allowed
  renews _ _ _ has := by cases has
  frames turn conditions other otherStage different trusted _ :=
    trust_cons trusted (.inl (Ne.symm different))
  spawned {task stage manager trace request} turn conditions call other
      spawns _ _ := by
    cases request with
    | spawn turn =>
        cases spawns
        trivial
    | _ => cases spawns
  passes _ _ _ _ _ has := by cases has

/-- An occurrence after which closed sessions are shut was that of a session
still open. -/
theorem stillOpen_of_shut {manager : Manager parts} {trace : Trace parts}
    {task : ℕ} {request : Section} {conditions : Conditions}
    (marked : Marked manager trace)
    (shut : Shut (exec conditions manager request).2
      (⟨task, manager, request, (exec conditions manager request).1⟩ ::
        trace)) :
    StillOpen trace ⟨task, manager, request,
      (exec conditions manager request).1⟩ := by
  cases request with
  | tryBegin id =>
      cases given : (exec conditions manager (.tryBegin id)).1 with
      | error error => trivial
      | ok permit =>
          have open_ := shut.refused _ List.mem_cons_self id
            (by dsimp only; rw [given]; rfl)
          by_contra since
          have mark := closedMark_of_closedSince (Bool.of_not_eq_false since)
          rw [← marked id, open_] at mark
          cases mark
  | touch subject id now =>
      by_contra since
      have mark := closedMark_of_closedSince (Bool.of_not_eq_false since)
      apply get_touch_self manager subject id now
      apply shut.absent id
      exact (isClosed_touch manager subject id id now).trans
        ((marked id).trans mark)
  | _ => trivial

/-- In every state that a run reaches, for any calls in any order, a closed
session is not in the table and none of its turns began while it was closed,
exactly when no session was closed, and not reopened, between the moment at
which a call found it open, or reopened it, and its next sections on it. -/
theorem shut_iff (parts : Parts) (limits : Limits) (admins : String → Bool)
    (hub : Hub parts.channels) (moves : List (Move Call Conditions)) :
    (∀ earlier, earlier <+: moves →
      Shut
        ((system parts limits).run (Manager.new parts limits admins hub)
          earlier).shared
        ((system parts limits).run (Manager.new parts limits admins hub)
          earlier).trace) ↔
    Throughout StillOpen
      ((system parts limits).run (Manager.new parts limits admins hub)
        moves).trace := by
  have reached : ∀ earlier : List (Move Call Conditions),
      Marked
        ((system parts limits).run (Manager.new parts limits admins hub)
          earlier).shared
        ((system parts limits).run (Manager.new parts limits admins hub)
          earlier).trace ∧
      (Throughout StillOpen
        ((system parts limits).run (Manager.new parts limits admins hub)
          earlier).trace →
        Shut
          ((system parts limits).run (Manager.new parts limits admins hub)
            earlier).shared
          ((system parts limits).run (Manager.new parts limits admins hub)
            earlier).trace) := by
    intro earlier
    have begins : Shut (Manager.new parts limits admins hub) [] := by
      constructor
      · intro id closed
        cases closed
      · intro passage member
        cases member
    obtain ⟨stages, holds⟩ := (closure_outline parts limits).run
      ⟨fun _ => rfl, fun _ => begins⟩ earlier
      (by intro move _; cases move <;> trivial)
    exact holds.inv
  constructor
  · intro shut
    apply @System.throughout_of_reached _ _ _ _ _ _ (system parts limits) _
      StillOpen fun manager trace => Marked manager trace ∧ Shut manager trace
    · intro task manager trace request conditions before after
      exact stillOpen_of_shut before.1 after.2
    · intro earlier begins
      exact ⟨(reached earlier).1, shut earlier begins⟩
  · intro still earlier begins
    exact (reached earlier).2 (System.throughout_of_earlier begins still)

/-- A run of calls on a session that is in memory. -/
def closing (moves : List (Move Call Conditions)) :
    Pool Call Section Section.Reply
      (Manager ⟨Ring.broadcast SessionEvent, TurnGate.listed⟩) Answer :=
  (system ⟨Ring.broadcast SessionEvent, TurnGate.listed⟩ ⟨8, 1000⟩).run
    (Manager.new _ ⟨8, 1000⟩ (fun _ => false) (Hub.new _ false 256))
    (.start (.resume "alice" "s") :: List.replicate 9 (.step 0 {}) ++ moves)

/-- A session is closed after a `send` found it open: the turn begins, and the
closed session is in the table. -/
theorem turn_begun_closed :
    ¬ ∀ moves, Shut (closing moves).shared (closing moves).trace := by
  intro all
  have absent := (all
    ([.start (.send "alice" "s" "text" none),
      .start (.close "alice" "s")] ++
      List.replicate 4 (.step 1 {}) ++ List.replicate 7 (.step 2 {}) ++
      List.replicate 6 (.step 1 {}))).absent "s" (by decide +kernel)
  exact absurd absent (by decide +kernel)

end MiryadCore.Interactive.Manager
