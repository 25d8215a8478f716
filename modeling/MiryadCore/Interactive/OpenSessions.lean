import MiryadCore.Interactive.ManagerProtocol

/-!
# The bound on the sessions in memory

A subject that is not an administrator has at most `maxOpenPerUser` sessions in
memory exactly as long as each section that brings one back into memory finds
room for it.  Only `open_` looks for room, some requests before it needs it.
-/

namespace MiryadCore.Interactive.Manager

variable {parts : Parts}

/-- The bound holds for each subject that is not an administrator. -/
def Bounded (manager : Manager parts) : Prop :=
  ∀ subject, manager.admins subject = false →
    manager.table.count subject ≤ manager.limits.maxOpenPerUser

/-- A session that is brought into memory finds room, once the idle sessions
are gone. -/
def HasRoom (_earlier : Trace parts) (passage : Passage parts) : Prop :=
  match passage.request with
  | .touch subject id now =>
      passage.before.admins subject = false →
      (passage.before.sweep now).table.get id = none →
      (passage.before.sweep now).table.count subject <
        passage.before.limits.maxOpenPerUser
  | _ => True

theorem count_sweep_le (manager : Manager parts) (now : ℕ) (subject : String) :
    (manager.sweep now).table.count subject ≤ manager.table.count subject :=
  manager.table.count_retain_le _ subject

theorem count_touchTable (manager : Manager parts) (subject : String)
    (id : SessionId) (now : ℕ) (other : String) :
    (manager.touchTable subject id now).2.table.count other =
      manager.table.count other +
        if manager.table.get id = none ∧ subject = other then 1 else 0 := by
  unfold touchTable
  cases found : manager.table.get id with
  | some value => simp
  | none =>
      simp only [true_and]
      exact Table.count_insert found _ other

/-- The limits and the administrators never change, and `touch` alone adds to
the table. -/
theorem exec_touchless (conditions : Conditions) (manager : Manager parts)
    (request : Section) :
    (exec conditions manager request).2.limits = manager.limits ∧
    (exec conditions manager request).2.admins = manager.admins ∧
    ((∀ subject id now, request ≠ .touch subject id now) → ∀ subject,
      (exec conditions manager request).2.table.count subject ≤
        manager.table.count subject) := by
  cases request with
  | touch subject id now =>
      refine ⟨?_, ?_, fun other => absurd rfl (other subject id now)⟩
      · simp only [exec, sweepTouch, touchTable]
        split <;> rfl
      · simp only [exec, sweepTouch, touchTable]
        split <;> rfl
  | closeTable id =>
      exact ⟨rfl, rfl, fun _ subject => manager.table.count_close_le id subject⟩
  | assemble caller kind agentId session token =>
      simp only [exec]
      split <;> exact ⟨rfl, rfl, fun _ _ => le_rfl⟩
  | tryBegin id =>
      simp only [exec, tryBegin]
      split <;> exact ⟨rfl, rfl, fun _ _ => le_rfl⟩
  | signal entry =>
      simp only [exec, signalEntry]
      split <;> exact ⟨rfl, rfl, fun _ _ => le_rfl⟩
  | _ => exact ⟨rfl, rfl, fun _ _ => le_rfl⟩

theorem count_touch (conditions : Conditions) (manager : Manager parts)
    (subject : String) (id : SessionId) (now : ℕ) (other : String) :
    (exec conditions manager (.touch subject id now)).2.table.count other =
      (manager.sweep now).table.count other +
        if (manager.sweep now).table.get id = none ∧ subject = other
        then 1 else 0 :=
  count_touchTable (manager.sweep now) subject id now other

/-- A section keeps the bound when it finds the room that it needs. -/
theorem Bounded.exec {manager : Manager parts} (bounded : Bounded manager)
    {task : ℕ} {trace : Trace parts} {request : Section}
    (conditions : Conditions)
    (room : HasRoom trace ⟨task, manager, request,
      (exec conditions manager request).1⟩) :
    Bounded (Manager.exec conditions manager request).2 := by
  obtain ⟨limits, admins, others⟩ := exec_touchless conditions manager request
  intro subject ordinary
  rw [admins] at ordinary
  rw [limits]
  by_cases touches : ∃ by_ id now, request = .touch by_ id now
  · obtain ⟨by_, id, now, same⟩ := touches
    subst same
    rw [count_touch]
    split
    next comes =>
      obtain ⟨absent, same⟩ := comes
      subst same
      exact room ordinary absent
    next =>
      exact (count_sweep_le manager now subject).trans (bounded subject ordinary)
  · have notTouch : ∀ by_ id now, request ≠ .touch by_ id now := by
      intro by_ id now same
      exact touches ⟨by_, id, now, same⟩
    exact (others notTouch subject).trans (bounded subject ordinary)

theorem hasRoom_of_bounded {manager : Manager parts} {task : ℕ}
    {trace : Trace parts} {request : Section} {conditions : Conditions}
    (bounded : Bounded (exec conditions manager request).2) :
    HasRoom trace ⟨task, manager, request,
      (exec conditions manager request).1⟩ := by
  obtain ⟨limits, admins, _⟩ := exec_touchless conditions manager request
  cases request with
  | touch subject id now =>
      intro ordinary absent
      have bound := bounded subject (by rw [admins]; exact ordinary)
      rw [limits, count_touch, if_pos ⟨absent, rfl⟩] at bound
      exact bound
  | _ => trivial

/-- In every state that a run reaches, for any calls in any order, the bound
holds exactly when every section of the run that brings a session into memory
finds room for it. -/
theorem bounded_iff (parts : Parts) (limits : Limits) (admins : String → Bool)
    (hub : Hub parts.channels) (moves : List (Move Call Conditions)) :
    (∀ earlier, earlier <+: moves →
      Bounded ((system parts limits).run
        (Manager.new parts limits admins hub) earlier).shared) ↔
    Throughout HasRoom ((system parts limits).run
      (Manager.new parts limits admins hub) moves).trace := by
  apply @System.reached_iff_throughout _ _ _ _ _ _ (system parts limits) _
    HasRoom fun manager _ => Bounded manager
  · intro subject ordinary
    exact Nat.zero_le _
  · intro task manager trace request conditions bounded room
    exact bounded.exec conditions room
  · intro task manager trace request conditions _ bounded
    exact hasRoom_of_bounded bounded

/-- A run of calls on sessions of one subject, who may have one in memory. -/
def overfull (moves : List (Move Call Conditions)) :
    Manager ⟨Ring.broadcast SessionEvent, TurnGate.listed⟩ :=
  ((system ⟨Ring.broadcast SessionEvent, TurnGate.listed⟩ ⟨1, 1000⟩).run
    (Manager.new _ ⟨1, 1000⟩ (fun _ => false) (Hub.new _ false 256)) moves).shared

/-- Two sessions are opened side by side: both look for room before either is
in the table. -/
theorem bound_overrun : ¬ ∀ moves, Bounded (overfull moves) := by
  intro all
  have bound := all
    ([.start (.open_ "alice" "context" none),
      .start (.open_ "alice" "context" none)] ++
      List.replicate 6 (.step 0 {}) ++ List.replicate 6 (.step 1 {}) ++
      List.replicate 7 (.step 0 { uuid := "s1" }) ++
      List.replicate 7 (.step 1 { uuid := "s2" })) "alice" rfl
  exact absurd bound (by decide +kernel)

end MiryadCore.Interactive.Manager
