import MiryadCore.Interactive.ManagerProtocol

/-!
# Reported cancellations

A turn ends with a handle that was cancelled exactly when a signal took the
lock of its entry since `send` lowered the flag of the entry.  A cancellation
that was reported is therefore delivered unless every signal of the turn came
before that section, as the gate says that a turn is active from the moment at
which `send` has its permit.
-/

namespace MiryadCore.Interactive.Manager

variable {parts : Parts}

/-- The permit with which a turn of the session holds the gate. -/
def holder (id : SessionId) : Trace parts → Option ℕ
  | [] => none
  | ⟨_, _, .tryBegin other, .ok permit⟩ :: earlier =>
      if other = id then some permit else holder id earlier
  | ⟨_, _, .release other _, _⟩ :: earlier =>
      if other = id then none else holder id earlier
  | _ :: earlier => holder id earlier

/-- A signal took the lock of the entry since its flag was last lowered. -/
def signalledSince (entry : ℕ) : Trace parts → Bool
  | [] => false
  | ⟨_, _, .signal other, _⟩ :: earlier =>
      if other = entry then true else signalledSince entry earlier
  | ⟨_, _, .lower other, _⟩ :: earlier =>
      if other = entry then false else signalledSince entry earlier
  | _ :: earlier => signalledSince entry earlier

/-- The task found a turn of the session active: that of the permit. -/
def Saw (trace : Trace parts) (task : ℕ) (id : SessionId) (permit : ℕ) : Prop :=
  ∃ before earlier,
    (⟨task, before, .isActive id, true⟩ :: earlier) <:+ trace ∧
    holder id earlier = some permit

/-- The turn runs to its end with the handle, after the passages `earlier`. -/
def Ended (trace : Trace parts) (turn : Turn) (handle : ℕ)
    (before : Manager parts) (earlier : Trace parts) : Prop :=
  ∃ task, (⟨task, before, .turnEnded turn handle, ()⟩ :: earlier) <:+ trace

/-- The task is a `cancel` that returned `true`. -/
def Reported (pool : Pool Call Section Section.Reply (Manager parts) Answer)
    (task : ℕ) (id : SessionId) : Prop :=
  ∃ subject, pool.tasks[task]? =
    some (.cancel subject id, .done (.cancelled (.ok true)))

/-- Each cancellation that was reported found a turn with a permit, and that
turn did not run to its end with a handle that was never cancelled. -/
def Delivered (pool : Pool Call Section Section.Reply (Manager parts) Answer) :
    Prop :=
  ∀ task id, Reported pool task id →
    (∃ permit, Saw pool.trace task id permit) ∧
    ∀ permit, Saw pool.trace task id permit →
      ∀ turn handle before earlier, turn.permit = permit →
        Ended pool.trace turn handle before earlier →
        before.cancelled handle = true

/-- A turn that a reported cancellation found active was signalled after its
`send` lowered the flag of its entry and before its end. -/
def SignalledInTime
    (pool : Pool Call Section Section.Reply (Manager parts) Answer) : Prop :=
  ∀ task id, Reported pool task id → ∀ permit, Saw pool.trace task id permit →
    ∀ turn handle before earlier, turn.permit = permit →
      Ended pool.trace turn handle before earlier →
      signalledSince turn.entry earlier = true

/-- The entry is given to a call for the session. -/
def Section.Enters (entry : ℕ) (id : SessionId) :
    (request : Section) → request.Reply → Prop
  | .touch _ other _, given => given = entry ∧ other = id
  | _, _ => False

/-- The handle is made. -/
def Section.Makes (handle : ℕ) : (request : Section) → request.Reply → Prop
  | .assemble _ _ _ _ _, .ok assembled => assembled.cancel = handle
  | _, _ => False

/-- The handle is published in the entry. -/
def Section.Publishes (entry handle : ℕ) : Section → Prop
  | .publish other given => other = entry ∧ given = handle
  | _ => False

/-- A signal to the entry. -/
def Section.signals (entry : ℕ) : Section → Bool
  | .signal other => decide (other = entry)
  | _ => false

theorem Section.signals_self (entry : ℕ) :
    (Section.signal entry).signals entry = true :=
  decide_eq_true rfl

theorem Section.signals_of_ne {request : Section} {entry : ℕ}
    (different : request ≠ .signal entry) : request.signals entry = false := by
  cases request with
  | signal other =>
      apply decide_eq_false
      intro same
      exact different (same ▸ rfl)
  | _ => rfl

def Entered (trace : Trace parts) (entry : ℕ) (id : SessionId) : Prop :=
  ∃ passage ∈ trace, passage.request.Enters entry id passage.answer

def Made (trace : Trace parts) (task handle : ℕ) : Prop :=
  ∃ passage ∈ trace, passage.task = task ∧
    passage.request.Makes handle passage.answer

def Published (trace : Trace parts) (entry handle : ℕ) : Prop :=
  ∃ passage ∈ trace, passage.request.Publishes entry handle

/-- The handle and the flag of an entry. -/
def slot (manager : Manager parts) (entry : ℕ) : Option (Option ℕ × Bool) :=
  (manager.entries[entry]?).map fun entry =>
    (entry.cancel, entry.cancelRequested)

theorem slot_modify (manager : Manager parts) (entry other : ℕ)
    (change : Entry → Entry) :
    slot { manager with entries := manager.entries.modify other change } entry =
      if other = entry then
        (manager.entries[entry]?).map fun entry =>
          ((change entry).cancel, (change entry).cancelRequested)
      else manager.slot entry := by
  unfold slot
  dsimp only
  rw [List.getElem?_modify]
  by_cases same : other = entry
  · rw [if_pos same]
    cases manager.entries[entry]? with
    | none => rfl
    | some found => simp [same]
  · rw [if_neg same]
    cases manager.entries[entry]? with
    | none => rfl
    | some found => simp [same]

theorem slot_touch {manager : Manager parts} {entry : ℕ}
    {value : Option ℕ × Bool} (found : manager.slot entry = some value)
    (subject : String) (id : SessionId) (now : ℕ) :
    (manager.sweepTouch subject id now).2.slot entry = some value := by
  unfold sweepTouch touchTable
  split
  next given _ =>
    rw [slot_modify (manager.sweep now)]
    split
    next => exact found
    next => exact found
  next =>
    unfold slot at found ⊢
    dsimp only
    have inside : entry < (manager.sweep now).entries.length := by
      by_contra outside
      have none : manager.entries[entry]? = none :=
        List.getElem?_eq_none (Nat.not_lt.mp outside)
      rw [none] at found
      cases found
    rw [List.getElem?_append_left inside]
    exact found

theorem slot_exec {manager : Manager parts} {entry : ℕ}
    {value : Option ℕ × Bool} (found : manager.slot entry = some value)
    (conditions : Conditions) {request : Section}
    (notForget : request ≠ .forget entry) (notLower : request ≠ .lower entry)
    (notPublish : ∀ handle, request ≠ .publish entry handle)
    (notSignal : request ≠ .signal entry) :
    (exec conditions manager request).2.slot entry = some value := by
  cases request with
  | touch subject id now => exact slot_touch found subject id now
  | forget other =>
      have different : other ≠ entry := fun same => notForget (same ▸ rfl)
      simp only [exec, slot_modify, if_neg different]
      exact found
  | lower other =>
      have different : other ≠ entry := fun same => notLower (same ▸ rfl)
      simp only [exec, slot_modify, if_neg different]
      exact found
  | publish other handle =>
      have different : other ≠ entry := fun same => notPublish handle (same ▸ rfl)
      simp only [exec, slot_modify, if_neg different]
      exact found
  | signal other =>
      have different : other ≠ entry := fun same => notSignal (same ▸ rfl)
      simp only [exec, signalEntry]
      split
      next => exact found
      next =>
        rw [slot_modify, if_neg different]
        exact found
      next => exact found
  | assemble caller kind agentId session token =>
      simp only [exec]
      split <;> exact found
  | tryBegin id =>
      simp only [exec, tryBegin]
      split <;> exact found
  | _ => exact found

theorem signal_none {manager : Manager parts} {entry : ℕ} {flag : Bool}
    (found : manager.slot entry = some (none, flag)) :
    (manager.signalEntry entry).slot entry = some (none, true) ∧
      (manager.signalEntry entry).cancelled = manager.cancelled := by
  unfold slot at found
  obtain ⟨there, here, same⟩ := Option.map_eq_some_iff.mp found
  obtain ⟨cancel, requested, lastUsed⟩ := there
  cases same
  unfold signalEntry
  rw [here]
  dsimp only
  refine ⟨?_, rfl⟩
  rw [slot_modify, if_pos rfl, here]
  rfl

theorem signal_some {manager : Manager parts} {entry handle : ℕ} {flag : Bool}
    (found : manager.slot entry = some (some handle, flag)) :
    manager.signalEntry entry =
      { manager with
        cancelled := Function.update manager.cancelled handle true } := by
  unfold slot at found
  obtain ⟨there, here, same⟩ := Option.map_eq_some_iff.mp found
  obtain ⟨cancel, requested, lastUsed⟩ := there
  cases same
  unfold signalEntry
  rw [here]

theorem signal_absent {manager : Manager parts} {entry : ℕ}
    (absent : manager.slot entry = none) :
    manager.signalEntry entry = manager := by
  unfold slot at absent
  unfold signalEntry
  rw [Option.map_eq_none_iff.mp absent]

/-- A handle is cancelled by name, or by a signal to an entry that has it. -/
theorem cancelled_exec {manager : Manager parts} {handle : ℕ}
    (conditions : Conditions) {request : Section}
    (notCancel : request ≠ .cancelHandle handle)
    (elsewhere : ∀ entry flag, request = .signal entry →
      manager.slot entry ≠ some (some handle, flag)) :
    (exec conditions manager request).2.cancelled handle =
      manager.cancelled handle := by
  cases request with
  | touch subject id now =>
      simp only [exec, sweepTouch, touchTable]
      split <;> rfl
  | cancelHandle other =>
      have different : handle ≠ other := fun same => notCancel (same ▸ rfl)
      exact Function.update_of_ne different _ _
  | signal entry =>
      have other := elsewhere entry
      cases found : manager.slot entry with
      | none => simp only [exec, signal_absent found]
      | some value =>
          obtain ⟨cancel, flag⟩ := value
          cases cancel with
          | none => simp only [exec, (signal_none found).2]
          | some given =>
              simp only [exec, signal_some found]
              apply Function.update_of_ne
              intro same
              subst same
              exact other flag rfl found
  | assemble caller kind agentId session token =>
      simp only [exec]
      split <;> rfl
  | tryBegin id =>
      simp only [exec, tryBegin]
      split <;> rfl
  | _ => rfl

section Trace

variable {trace : Trace parts} {passage : Passage parts} {id : SessionId}
  {entry handle task : ℕ}

theorem holder_cons_of_ne (notBegin : passage.request ≠ .tryBegin id)
    (notRelease : ∀ permit, passage.request ≠ .release id permit) :
    holder id (passage :: trace) = holder id trace := by
  obtain ⟨turn, before, request, answer⟩ := passage
  cases request with
  | tryBegin other =>
      have different : other ≠ id := fun same => notBegin (same ▸ rfl)
      cases answer with
      | ok permit => exact if_neg different
      | error error => rfl
  | release other permit =>
      have different : other ≠ id := fun same => notRelease permit (same ▸ rfl)
      exact if_neg different
  | _ => rfl

theorem signalledSince_cons_of_ne (notSignal : passage.request ≠ .signal entry)
    (notLower : passage.request ≠ .lower entry) :
    signalledSince entry (passage :: trace) = signalledSince entry trace := by
  obtain ⟨turn, before, request, answer⟩ := passage
  cases request with
  | signal other =>
      have different : other ≠ entry := fun same => notSignal (same ▸ rfl)
      exact if_neg different
  | lower other =>
      have different : other ≠ entry := fun same => notLower (same ▸ rfl)
      exact if_neg different
  | _ => rfl

theorem entered_cons : Entered (passage :: trace) entry id ↔
    passage.request.Enters entry id passage.answer ∨ Entered trace entry id :=
  List.exists_mem_cons_iff _ _ _

theorem published_cons : Published (passage :: trace) entry handle ↔
    passage.request.Publishes entry handle ∨ Published trace entry handle :=
  List.exists_mem_cons_iff _ _ _

theorem made_cons : Made (passage :: trace) task handle ↔
    (passage.task = task ∧ passage.request.Makes handle passage.answer) ∨
      Made trace task handle :=
  List.exists_mem_cons_iff _ _ _

theorem Entered.cons (entered : Entered trace entry id) :
    Entered (passage :: trace) entry id :=
  entered_cons.mpr (.inr entered)

theorem Published.cons (published : Published trace entry handle) :
    Published (passage :: trace) entry handle :=
  published_cons.mpr (.inr published)

theorem Made.cons (made : Made trace task handle) :
    Made (passage :: trace) task handle :=
  made_cons.mpr (.inr made)

theorem Saw.cons {permit : ℕ} (saw : Saw trace task id permit) :
    Saw (passage :: trace) task id permit := by
  obtain ⟨before, earlier, found, held⟩ := saw
  exact ⟨before, earlier, found.trans (List.suffix_cons _ _), held⟩

theorem entered_cons_of_ne
    (other : ∀ subject id now, passage.request ≠ .touch subject id now) :
    Entered (passage :: trace) entry id ↔ Entered trace entry id := by
  rw [entered_cons]
  obtain ⟨turn, before, request, answer⟩ := passage
  cases request with
  | touch subject id now => exact absurd rfl (other subject id now)
  | _ => simp [Section.Enters]

theorem published_cons_of_ne
    (other : passage.request ≠ .publish entry handle) :
    Published (passage :: trace) entry handle ↔ Published trace entry handle := by
  rw [published_cons]
  obtain ⟨turn, before, request, answer⟩ := passage
  cases request with
  | publish given named =>
      have different : ¬(given = entry ∧ named = handle) := by
        intro same
        obtain ⟨sameEntry, sameHandle⟩ := same
        subst sameEntry
        subst sameHandle
        exact other rfl
      simp [Section.Publishes, different]
  | _ => simp [Section.Publishes]

end Trace

/-- What holds whatever the tasks are doing. -/
structure Kept (manager : Manager parts) (trace : Trace parts) : Prop where
  gate : ∀ id, parts.gate.isActive id manager.gate = (holder id trace).isSome
  permits : ∀ {id permit}, holder id trace = some permit →
    permit < manager.permits
  table : ∀ {id subject entry}, manager.table.get id = some (subject, entry) →
    Entered trace entry id
  entered : ∀ {entry id}, Entered trace entry id →
    entry < manager.entries.length
  session : ∀ {entry id other}, Entered trace entry id →
    Entered trace entry other → id = other
  made : ∀ {task handle}, Made trace task handle → handle < manager.handles
  maker : ∀ {task other handle}, Made trace task handle →
    Made trace other handle → task = other
  published : ∀ {entry handle}, Published trace entry handle →
    handle < manager.handles
  publisher : ∀ {entry other handle}, Published trace entry handle →
    Published trace other handle → entry = other
  slots : ∀ {entry handle flag}, manager.slot entry = some (some handle, flag) →
    Published trace entry handle
  cancelled : ∀ {handle}, manager.cancelled handle = true →
    handle < manager.handles
  ended : ∀ {turn handle before earlier},
    Ended trace turn handle before earlier →
    before.cancelled handle = signalledSince turn.entry earlier

/-- The permit holds the gate of the session, whose entry this is. -/
structure Holds (trace : Trace parts) (id : SessionId) (permit entry : ℕ) :
    Prop where
  holder : holder id trace = some permit
  entered : Entered trace entry id

/-- A turn with a handle that it has published, and `pending` while it goes to
cancel the handle itself. -/
structure Cancels (manager : Manager parts) (trace : Trace parts)
    (task : ℕ) (id : SessionId) (permit entry handle : ℕ)
    (pending : Bool → Bool) : Prop where
  holds : Holds trace id permit entry
  made : Made trace task handle
  published : Published trace entry handle
  slot : ∃ flag, manager.slot entry = some (some handle, flag) ∧
    (pending flag || manager.cancelled handle) = signalledSince entry trace

/-- What a task knows at each stage of its call. -/
def knows (task : ℕ) : Stage → Manager parts → Trace parts → Prop
  | .permitted id permit, _, trace => holder id trace = some permit
  | .touched id permit entry, _, trace => Holds trace id permit entry
  | .forgotten id permit entry, manager, trace =>
      Holds trace id permit entry ∧
        ∃ flag, manager.slot entry = some (none, flag)
  | .lowered id permit entry, manager, trace =>
      Holds trace id permit entry ∧
        manager.slot entry = some (none, signalledSince entry trace)
  | .begun id permit entry, manager, trace =>
      Holds trace id permit entry ∧
        manager.slot entry = some (none, signalledSince entry trace)
  | .assembled id permit entry handle, manager, trace =>
      Holds trace id permit entry ∧
        manager.slot entry = some (none, signalledSince entry trace) ∧
        Made trace task handle ∧ (∀ other, ¬Published trace other handle) ∧
        manager.cancelled handle = false
  | .published id permit entry handle, manager, trace =>
      Cancels manager trace task id permit entry handle fun flag => flag
  | .asked id permit entry handle requested, manager, trace =>
      Cancels manager trace task id permit entry handle fun _ => requested
  | .running id permit entry handle, manager, trace =>
      Cancels manager trace task id permit entry handle fun _ => false
  | .finished id permit, _, trace => holder id trace = some permit
  | .saw id, _, trace => ∃ permit, Saw trace task id permit
  | .signalling id _, _, trace => ∃ permit, Saw trace task id permit
  | .signalled id, _, trace => ∃ permit, Saw trace task id permit
  | _, _, _ => True

/-- The passage leaves alone what a task at the stage has: the gate, its entry
and its handle. -/
structure Leaves (trace : Trace parts) (passage : Passage parts) (task : ℕ)
    (stage : Stage) : Prop where
  holder : ∀ {id permit}, stage.permit = some permit →
    holder id trace = some permit → holder id (passage :: trace) = some permit
  entry : ∀ {id permit entry}, stage.permit = some permit →
    Holds trace id permit entry →
    passage.request ≠ .forget entry ∧ passage.request ≠ .lower entry ∧
      ∀ handle, passage.request ≠ .publish entry handle
  handle : ∀ {handle}, Made trace task handle →
    passage.request ≠ .cancelHandle handle ∧
      ∀ entry, passage.request ≠ .publish entry handle

section Frame

variable {manager : Manager parts} {trace : Trace parts} {request : Section}
  {stage : Stage} {task other : ℕ} {id : SessionId} {permit entry handle : ℕ}

/-- The passage of a section. -/
abbrev passed (task : ℕ) (manager : Manager parts) (request : Section)
    (conditions : Conditions) : Passage parts :=
  ⟨task, manager, request, (exec conditions manager request).1⟩

theorem Leaves.holds {passage : Passage parts}
    (leaves : Leaves trace passage task stage)
    (has : stage.permit = some permit) (holds : Holds trace id permit entry) :
    Holds (passage :: trace) id permit entry :=
  ⟨leaves.holder has holds.holder, holds.entered.cons⟩

theorem slot_none_cons {flag : Bool} (conditions : Conditions)
    (notForget : request ≠ .forget entry) (notLower : request ≠ .lower entry)
    (notPublish : ∀ handle, request ≠ .publish entry handle)
    (found : manager.slot entry = some (none, flag)) :
    (exec conditions manager request).2.slot entry =
      some (none, flag || request.signals entry) := by
  by_cases signals : request = .signal entry
  · subst signals
    rw [Section.signals_self, Bool.or_true]
    exact (signal_none found).1
  · rw [Section.signals_of_ne signals, Bool.or_false]
    exact slot_exec found conditions notForget notLower notPublish signals

theorem signalledSince_cons {passage : Passage parts}
    (notLower : passage.request ≠ .lower entry) :
    signalledSince entry (passage :: trace) =
      (signalledSince entry trace || passage.request.signals entry) := by
  by_cases signals : passage.request = .signal entry
  · obtain ⟨turn, before, request, answer⟩ := passage
    dsimp only at signals
    subst signals
    rw [Section.signals_self, Bool.or_true]
    exact if_pos rfl
  · rw [Section.signals_of_ne signals, Bool.or_false]
    exact signalledSince_cons_of_ne signals notLower

theorem uncancelled_exec (kept : Kept manager trace) (conditions : Conditions)
    (notCancel : request ≠ .cancelHandle handle)
    (unpublished : ∀ entry, ¬Published trace entry handle) :
    (exec conditions manager request).2.cancelled handle =
      manager.cancelled handle := by
  apply cancelled_exec conditions notCancel
  intro entry flag _ found
  exact unpublished entry (kept.slots found)

/-- A published handle is cancelled by the signals to its entry. -/
theorem Cancels.cons {pending : Bool → Bool} (kept : Kept manager trace)
    (conditions : Conditions)
    (leaves : Leaves trace (passed other manager request conditions) task stage)
    (has : stage.permit = some permit)
    (cancels : Cancels manager trace task id permit entry handle pending) :
    Cancels (exec conditions manager request).2
      (passed other manager request conditions :: trace) task id permit entry
      handle pending := by
  obtain ⟨notForget, notLower, notPublish⟩ := leaves.entry has cancels.holds
  obtain ⟨notCancel, _⟩ := leaves.handle cancels.made
  refine ⟨leaves.holds has cancels.holds, cancels.made.cons,
    cancels.published.cons, ?_⟩
  obtain ⟨flag, found, told⟩ := cancels.slot
  refine ⟨flag, ?_⟩
  by_cases signals : request = .signal entry
  · subst signals
    have same := signal_some found
    simp only [exec, same]
    refine ⟨found, ?_⟩
    rw [Function.update_self, Bool.or_true]
    exact (if_pos rfl).symm
  · refine ⟨slot_exec found conditions notForget notLower notPublish signals, ?_⟩
    have kept : (exec conditions manager request).2.cancelled handle =
        manager.cancelled handle := by
      apply cancelled_exec conditions notCancel
      intro given flag same elsewhere
      have shared := kept.publisher (kept.slots elsewhere) cancels.published
      subst shared
      exact signals same
    rw [kept, told]
    exact (signalledSince_cons_of_ne signals notLower).symm

/-- What a task knows stands while the sections leave it alone. -/
theorem knows_cons (kept : Kept manager trace) (conditions : Conditions)
    (leaves : Leaves trace (passed other manager request conditions) task stage)
    (known : knows task stage manager trace) :
    knows task stage (exec conditions manager request).2
      (passed other manager request conditions :: trace) := by
  have flagged : ∀ {id permit entry}, stage.permit = some permit →
      Holds trace id permit entry →
      manager.slot entry = some (none, signalledSince entry trace) →
      (exec conditions manager request).2.slot entry =
        some (none, signalledSince entry
          (passed other manager request conditions :: trace)) := by
    intro id permit entry has holds found
    obtain ⟨notForget, notLower, notPublish⟩ := leaves.entry has holds
    rw [signalledSince_cons notLower]
    exact slot_none_cons conditions notForget notLower notPublish found
  have sees : ∀ {id}, (∃ permit, Saw trace task id permit) →
      ∃ permit, Saw (passed other manager request conditions :: trace) task id
        permit := by
    intro id saw
    obtain ⟨permit, saw⟩ := saw
    exact ⟨permit, saw.cons⟩
  cases stage with
  | permitted id permit => exact leaves.holder rfl known
  | touched id permit entry => exact leaves.holds rfl known
  | forgotten id permit entry =>
      obtain ⟨holds, flag, found⟩ := known
      obtain ⟨notForget, notLower, notPublish⟩ := leaves.entry rfl holds
      exact ⟨leaves.holds rfl holds, _,
        slot_none_cons conditions notForget notLower notPublish found⟩
  | lowered id permit entry =>
      exact ⟨leaves.holds rfl known.1, flagged rfl known.1 known.2⟩
  | begun id permit entry =>
      exact ⟨leaves.holds rfl known.1, flagged rfl known.1 known.2⟩
  | assembled id permit entry handle =>
      obtain ⟨holds, found, made, unpublished, uncancelled⟩ := known
      obtain ⟨notCancel, notPublish⟩ := leaves.handle made
      refine ⟨leaves.holds rfl holds, flagged rfl holds found, made.cons, ?_, ?_⟩
      · intro given published
        rw [published_cons_of_ne (notPublish given)] at published
        exact unpublished given published
      · rw [uncancelled_exec kept conditions notCancel unpublished]
        exact uncancelled
  | published id permit entry handle => exact known.cons kept conditions leaves rfl
  | asked id permit entry handle requested =>
      exact known.cons kept conditions leaves rfl
  | running id permit entry handle => exact known.cons kept conditions leaves rfl
  | finished id permit => exact leaves.holder rfl known
  | saw id => exact sees known
  | signalling id entry => exact sees known
  | signalled id => exact sees known
  | _ => trivial

theorem tryBegin_cases (manager : Manager parts) (id : SessionId) :
    ((manager.tryBegin id).1 = .ok manager.permits ∧
      parts.gate.isActive id manager.gate = false ∧
      (∀ other, parts.gate.isActive other (manager.tryBegin id).2.gate =
        (decide (other = id) || parts.gate.isActive other manager.gate)) ∧
      (manager.tryBegin id).2.permits = manager.permits + 1) ∨
    (∃ error, (manager.tryBegin id).1 = .error error ∧
      (∀ other, parts.gate.isActive other (manager.tryBegin id).2.gate =
        parts.gate.isActive other manager.gate) ∧
      (manager.tryBegin id).2.permits = manager.permits) := by
  unfold tryBegin
  dsimp only
  split
  next given =>
      obtain ⟨free, active⟩ := parts.gate.tryBegin_ok id manager.gate given
      exact .inl ⟨rfl, free, active, rfl⟩
  next error refused =>
      exact .inr ⟨error, rfl,
        parts.gate.tryBegin_error id manager.gate error refused, rfl⟩

theorem leaves_passive (conditions : Conditions) (passive : request.Passive) :
    Leaves trace (passed other manager request conditions) task stage where
  holder _ held := by
    rw [holder_cons_of_ne]
    · exact held
    · intro same
      rw [show request = _ from same] at passive
      exact passive
    · intro permit same
      rw [show request = _ from same] at passive
      exact passive
  entry _ _ := by
    refine ⟨?_, ?_, fun handle => ?_⟩ <;>
      (intro same; rw [show request = _ from same] at passive; exact passive)
  handle _ := by
    refine ⟨?_, fun entry => ?_⟩ <;>
      (intro same; rw [show request = _ from same] at passive; exact passive)

section Other

variable {moving : Stage}

/-- The gate stays with a task, whatever one without its permit does. -/
theorem holder_of_other (kept : Kept manager trace) (conditions : Conditions)
    (allowed : protocol.allows moving request)
    (known : knows other moving manager trace)
    (apart : moving.permit ≠ some permit)
    (held : holder id trace = some permit) :
    holder id (passed other manager request conditions :: trace) =
      some permit := by
  cases request with
  | tryBegin given =>
      rcases tryBegin_cases manager given with
        ⟨begun, free, _, _⟩ | ⟨error, refused, _, _⟩
      · have different : given ≠ id := by
          intro same
          subst same
          rw [kept.gate, held] at free
          cases free
        simp only [passed, exec, begun, holder, if_neg different]
        exact held
      · simp only [passed, exec, refused, holder]
        exact held
  | release given freed =>
      have stage := stage_of_release allowed
      subst stage
      have different : given ≠ id := by
        intro same
        subst same
        have same : some freed = some permit := known.symm.trans held
        exact apart same
      exact (if_neg different).trans held
  | _ => exact held

theorem entry_of_other (kept : Kept manager trace) {id' : SessionId}
    {permit' : ℕ} (mine : Holds trace id permit entry)
    (theirs : Holds trace id' permit' entry) : permit = permit' := by
  have same := kept.session mine.entered theirs.entered
  subst same
  exact Option.some.inj (mine.holder.symm.trans theirs.holder)

/-- A task leaves alone what the tasks with other permits have. -/
theorem leaves_other (kept : Kept manager trace) (conditions : Conditions)
    (allowed : protocol.allows moving request)
    (known : knows other moving manager trace) (different : task ≠ other)
    (apart : ∀ held, moving.permit = some held → stage.permit ≠ some held) :
    Leaves trace (passed other manager request conditions) task stage where
  holder has held := by
    apply holder_of_other kept conditions allowed known _ held
    intro theirs
    exact apart _ theirs has
  entry {id permit entry} has holds := by
    refine ⟨?_, ?_, fun handle => ?_⟩
    · intro same
      dsimp only at same
      subst same
      obtain ⟨theirs, given, stage⟩ := stage_of_forget allowed
      subst stage
      rw [entry_of_other kept holds known] at has
      exact apart given rfl has
    · intro same
      dsimp only at same
      subst same
      obtain ⟨theirs, given, stage⟩ := stage_of_lower allowed
      subst stage
      rw [entry_of_other kept holds known.1] at has
      exact apart given rfl has
    · intro same
      dsimp only at same
      subst same
      obtain ⟨theirs, given, stage⟩ := stage_of_publish allowed
      subst stage
      rw [entry_of_other kept holds known.1] at has
      exact apart given rfl has
  handle made := by
    refine ⟨?_, fun entry => ?_⟩
    · intro same
      dsimp only at same
      subst same
      obtain ⟨theirs, given, entry, stage⟩ := stage_of_cancelHandle allowed
      subst stage
      exact different (kept.maker made known.made)
    · intro same
      dsimp only at same
      subst same
      obtain ⟨theirs, given, stage⟩ := stage_of_publish allowed
      subst stage
      exact different (kept.maker made known.2.2.1)

end Other

end Frame

section Own

variable {manager : Manager parts} {trace : Trace parts} {task : ℕ}
  {id : SessionId} {permit entry handle : ℕ}

theorem Holds.cons {passage : Passage parts} (holds : Holds trace id permit entry)
    (notBegin : passage.request ≠ .tryBegin id)
    (notRelease : ∀ permit, passage.request ≠ .release id permit) :
    Holds (passage :: trace) id permit entry :=
  ⟨(holder_cons_of_ne notBegin notRelease).trans holds.holder,
    holds.entered.cons⟩

theorem saw_isActive (kept : Kept manager trace)
    (active : parts.gate.isActive id manager.gate = true) :
    ∃ permit, Saw (⟨task, manager, .isActive id,
      parts.gate.isActive id manager.gate⟩ :: trace) task id permit := by
  rw [kept.gate, Option.isSome_iff_exists] at active
  obtain ⟨permit, held⟩ := active
  refine ⟨permit, manager, trace, ?_, held⟩
  rw [kept.gate, held]
  exact List.suffix_refl _

theorem slot_forget (kept : Kept manager trace)
    (entered : Entered trace entry id) (conditions : Conditions) :
    ∃ flag, (exec conditions manager (.forget entry)).2.slot entry =
      some (none, flag) := by
  have inside := kept.entered entered
  simp only [exec, slot_modify, if_true]
  rw [List.getElem?_eq_getElem inside]
  exact ⟨_, rfl⟩

theorem slot_lower {value : Option ℕ × Bool} (conditions : Conditions)
    (found : manager.slot entry = some value) :
    (exec conditions manager (.lower entry)).2.slot entry =
      some (value.1, false) := by
  obtain ⟨there, here, same⟩ := Option.map_eq_some_iff.mp found
  simp only [exec, slot_modify, if_true, here]
  rw [← same]
  rfl

theorem slot_publish {value : Option ℕ × Bool} (conditions : Conditions)
    (found : manager.slot entry = some value) :
    (exec conditions manager (.publish entry handle)).2.slot entry =
      some (some handle, value.2) := by
  obtain ⟨there, here, same⟩ := Option.map_eq_some_iff.mp found
  simp only [exec, slot_modify, if_true, here]
  rw [← same]
  rfl

theorem requested_of_slot {value : Option ℕ × Bool} (conditions : Conditions)
    (found : manager.slot entry = some value) :
    (exec conditions manager (.requested entry)).1 = value.2 := by
  obtain ⟨there, here, same⟩ := Option.map_eq_some_iff.mp found
  simp only [exec, here, ← same]
  rfl

/-- A handle that was just made is not published, and not cancelled. -/
theorem knows_assemble (kept : Kept manager trace)
    (known : knows task (.begun id permit entry) manager trace)
    (caller : CallerPrincipal) (kind : SessionKind) (agentId : String)
    (session : SessionId) (token : Option String) (conditions : Conditions) :
    knows task
      (Stage.next (.begun id permit entry)
        (.assemble caller kind agentId session token)
        (exec conditions manager
          (.assemble caller kind agentId session token)).1)
      (exec conditions manager (.assemble caller kind agentId session token)).2
      (passed task manager (.assemble caller kind agentId session token)
        conditions :: trace) := by
  obtain ⟨holds, found⟩ := known
  simp only [passed, exec]
  cases conditions.assembled with
  | error error => exact holds.holder
  | ok notices =>
      refine ⟨holds.cons (by simp) (by simp), found, ?_, ?_, ?_⟩
      · exact made_cons.mpr (.inl ⟨rfl, rfl⟩)
      · intro other published
        rw [published_cons_of_ne (by simp)] at published
        exact Nat.lt_irrefl _ (kept.published published)
      · apply Bool.of_not_eq_true
        intro cancelled
        exact Nat.lt_irrefl _ (kept.cancelled cancelled)

theorem knows_publish
    (known : knows task (.assembled id permit entry handle) manager trace)
    (conditions : Conditions) :
    knows task (.published id permit entry handle)
      (exec conditions manager (.publish entry handle)).2
      (passed task manager (.publish entry handle) conditions :: trace) := by
  obtain ⟨holds, found, made, _, uncancelled⟩ := known
  refine ⟨holds.cons (by simp) (by simp), made.cons, ?_, _,
    slot_publish conditions found, ?_⟩
  · exact published_cons.mpr (.inl ⟨rfl, rfl⟩)
  · simp only [exec, uncancelled, Bool.or_false]
    exact (signalledSince_cons_of_ne (by simp) (by simp)).symm

theorem knows_requested
    (known : knows task (.published id permit entry handle) manager trace)
    (conditions : Conditions) :
    knows task
      (.asked id permit entry handle
        (exec conditions manager (.requested entry)).1)
      (exec conditions manager (.requested entry)).2
      (passed task manager (.requested entry) conditions :: trace) := by
  obtain ⟨holds, made, published, flag, found, told⟩ := known
  refine ⟨holds.cons (by simp) (by simp), made.cons, published.cons, flag, found,
    ?_⟩
  rw [requested_of_slot conditions found,
    signalledSince_cons_of_ne (by simp) (by simp)]
  exact told

theorem knows_cancelHandle
    (known : knows task (.asked id permit entry handle true) manager trace)
    (conditions : Conditions) :
    knows task (.running id permit entry handle)
      (exec conditions manager (.cancelHandle handle)).2
      (passed task manager (.cancelHandle handle) conditions :: trace) := by
  obtain ⟨holds, made, published, flag, found, told⟩ := known
  refine ⟨holds.cons (by simp) (by simp), made.cons, published.cons, flag, found,
    ?_⟩
  rw [signalledSince_cons_of_ne (by simp) (by simp), ← told]
  exact Function.update_self _ _ _

theorem knows_runTurn
    (known : Cancels manager trace task id permit entry handle fun _ => false)
    (text : String) (conditions : Conditions) :
    knows task (.running id permit entry handle)
      (exec conditions manager (.runTurn handle text)).2
      (passed task manager (.runTurn handle text) conditions :: trace) := by
  obtain ⟨holds, made, published, flag, found, told⟩ := known
  refine ⟨holds.cons (by simp) (by simp), made.cons, published.cons, flag, found,
    ?_⟩
  rw [signalledSince_cons_of_ne (by simp) (by simp), ← told]
  rfl

theorem Saw.some_cons {passage : Passage parts}
    (saw : ∃ permit, Saw trace task id permit) :
    ∃ permit, Saw (passage :: trace) task id permit := by
  obtain ⟨permit, saw⟩ := saw
  exact ⟨permit, saw.cons⟩

/-- What the task knows after a section of its own. -/
theorem knows_next {stage : Stage} {request : Section} (conditions : Conditions)
    (kept : Kept manager trace) (known : knows task stage manager trace)
    (allowed : protocol.allows stage request) :
    knows task (stage.next request (exec conditions manager request).1)
      (exec conditions manager request).2
      (passed task manager request conditions :: trace) := by
  rcases allowed with passive | active
  · rw [next_passive stage passive]
    exact knows_cons kept conditions (leaves_passive conditions passive) known
  cases stage with
  | free =>
      cases request with
      | isClosed id =>
          simp only [Stage.next]
          split <;> trivial
      | isActive id =>
          by_cases busy : parts.gate.isActive id manager.gate = true
          · have next : Stage.next .free (.isActive id)
                (exec conditions manager (.isActive id)).1 = .saw id :=
              if_pos busy
            rw [next]
            exact saw_isActive kept busy
          · have next : Stage.next .free (.isActive id)
                (exec conditions manager (.isActive id)).1 = .free :=
              if_neg busy
            rw [next]
            trivial
      | assemble caller kind agentId session token => trivial
      | reopen id => trivial
      | closeTable id => trivial
      | _ => exact active.elim
  | opening =>
      cases request with
      | touch subject id now => trivial
      | _ => exact active.elim
  | checked id =>
      cases request with
      | tryBegin other =>
          cases active
          rcases tryBegin_cases manager id with
            ⟨begun, _, _, _⟩ | ⟨error, refused, _, _⟩
          · simp only [passed, exec, begun]
            exact if_pos rfl
          · simp only [passed, exec, refused]
            trivial
      | _ => exact active.elim
  | permitted id permit =>
      cases request with
      | touch subject other now =>
          cases active
          refine ⟨(holder_cons_of_ne (by simp) (by simp)).trans known, ?_⟩
          exact entered_cons.mpr (.inl ⟨rfl, rfl⟩)
      | _ => exact active.elim
  | touched id permit entry =>
      cases request with
      | forget other =>
          cases active
          exact ⟨known.cons (by simp) (by simp),
            slot_forget kept known.entered conditions⟩
      | _ => exact active.elim
  | forgotten id permit entry =>
      cases request with
      | lower other =>
          cases active
          obtain ⟨holds, flag, found⟩ := known
          refine ⟨holds.cons (by simp) (by simp),
            (slot_lower conditions found).trans ?_⟩
          simp only [signalledSince, if_true]
      | _ => exact active.elim
  | lowered id permit entry =>
      cases request with
      | spawn turn => trivial
      | _ => exact active.elim
  | begun id permit entry =>
      cases request with
      | assemble caller kind agentId session token =>
          exact knows_assemble kept known caller kind agentId session token
            conditions
      | _ => exact active.elim
  | assembled id permit entry handle =>
      cases request with
      | publish other given =>
          obtain ⟨sameEntry, sameHandle⟩ := active
          subst sameEntry
          subst sameHandle
          exact knows_publish known conditions
      | _ => exact active.elim
  | published id permit entry handle =>
      cases request with
      | requested other =>
          cases active
          exact knows_requested known conditions
      | _ => exact active.elim
  | asked id permit entry handle requested =>
      cases request with
      | cancelHandle other =>
          obtain ⟨sameFlag, sameHandle⟩ := active
          subst sameFlag
          subst sameHandle
          exact knows_cancelHandle known conditions
      | runTurn other text =>
          obtain ⟨sameFlag, sameHandle⟩ := active
          subst sameFlag
          subst sameHandle
          exact knows_runTurn known text conditions
      | _ => exact active.elim
  | running id permit entry handle =>
      cases request with
      | runTurn other text =>
          cases active
          exact knows_runTurn known text conditions
      | turnEnded turn other =>
          exact (holder_cons_of_ne (by simp) (by simp)).trans
            known.holds.holder
      | _ => exact active.elim
  | finished id permit =>
      cases request with
      | release other given => trivial
      | _ => exact active.elim
  | saw id =>
      cases request with
      | entryOf other =>
          simp only [passed, exec]
          cases (manager.table.get other).map Prod.snd with
          | none => exact Saw.some_cons known
          | some entry => exact Saw.some_cons known
      | _ => exact active.elim
  | signalling id entry =>
      cases request with
      | signal other => exact Saw.some_cons known
      | _ => exact active.elim
  | signalled id =>
      cases request with
      | closeTable other => exact Saw.some_cons known
      | _ => exact active.elim
  | reopened id =>
      cases request with
      | touch subject other now => trivial
      | _ => exact active.elim

end Own

namespace Kept

variable {manager : Manager parts} {trace : Trace parts} {task : ℕ}
  {stage : Stage} {request : Section}

theorem exec_gate (conditions : Conditions) (manager : Manager parts)
    {request : Section} (notBegin : ∀ id, request ≠ .tryBegin id)
    (notRelease : ∀ id permit, request ≠ .release id permit) :
    (exec conditions manager request).2.gate = manager.gate ∧
      (exec conditions manager request).2.permits = manager.permits := by
  cases request with
  | tryBegin id => exact absurd rfl (notBegin id)
  | release id permit => exact absurd rfl (notRelease id permit)
  | touch subject id now =>
      simp only [exec, sweepTouch, touchTable]
      split <;> exact ⟨rfl, rfl⟩
  | assemble caller kind agentId session token =>
      simp only [exec]
      split <;> exact ⟨rfl, rfl⟩
  | signal entry =>
      simp only [exec, signalEntry]
      split <;> exact ⟨rfl, rfl⟩
  | _ => exact ⟨rfl, rfl⟩

theorem gate_exec (kept : Kept manager trace) (conditions : Conditions)
    (id : SessionId) :
    parts.gate.isActive id (exec conditions manager request).2.gate =
      (holder id (passed task manager request conditions :: trace)).isSome := by
  by_cases begins : ∃ other, request = .tryBegin other
  · obtain ⟨other, same⟩ := begins
    subst same
    rcases tryBegin_cases manager other with
      ⟨begun, _, active, _⟩ | ⟨error, refused, active, _⟩
    · simp only [passed, exec, begun, active, holder]
      split
      next same => simp [same]
      next different =>
        rw [decide_eq_false (Ne.symm different), Bool.false_or]
        exact kept.gate id
    · simp only [passed, exec, refused, active, holder]
      exact kept.gate id
  by_cases releases : ∃ other permit, request = .release other permit
  · obtain ⟨other, permit, same⟩ := releases
    subst same
    simp only [exec, parts.gate.isActive_release, holder]
    split
    next same => simp [same]
    next different =>
      rw [decide_eq_false (Ne.symm different), Bool.not_false, Bool.and_true]
      exact kept.gate id
  have notBegin : ∀ id, request ≠ .tryBegin id := fun id same =>
    begins ⟨id, same⟩
  have notRelease : ∀ id permit, request ≠ .release id permit :=
    fun id permit same => releases ⟨id, permit, same⟩
  rw [(exec_gate conditions manager notBegin notRelease).1,
    holder_cons_of_ne (notBegin id) (notRelease id)]
  exact kept.gate id

theorem permits_exec (kept : Kept manager trace) (conditions : Conditions)
    {id : SessionId} {permit : ℕ}
    (held : holder id (passed task manager request conditions :: trace) =
      some permit) :
    permit < (exec conditions manager request).2.permits := by
  by_cases begins : ∃ other, request = .tryBegin other
  · obtain ⟨other, same⟩ := begins
    subst same
    rcases tryBegin_cases manager other with
      ⟨begun, _, _, more⟩ | ⟨error, refused, _, same⟩
    · simp only [passed, exec, begun, holder] at held
      simp only [exec, more]
      split at held
      next =>
        cases held
        exact Nat.lt_succ_self _
      next => exact Nat.lt_succ_of_lt (kept.permits held)
    · simp only [passed, exec, refused, holder] at held
      simp only [exec, same]
      exact kept.permits held
  by_cases releases : ∃ other permit, request = .release other permit
  · obtain ⟨other, given, same⟩ := releases
    subst same
    simp only [holder] at held
    split at held
    next => cases held
    next => exact kept.permits held
  have notBegin : ∀ id, request ≠ .tryBegin id := fun id same =>
    begins ⟨id, same⟩
  have notRelease : ∀ id permit, request ≠ .release id permit :=
    fun id permit same => releases ⟨id, permit, same⟩
  rw [holder_cons_of_ne (notBegin id) (notRelease id)] at held
  rw [(exec_gate conditions manager notBegin notRelease).2]
  exact kept.permits held

theorem touch_cases (kept : Kept manager trace) (subject : String)
    (id : SessionId) (now : ℕ) :
    (Entered trace (manager.sweepTouch subject id now).1 id ∧
      (manager.sweepTouch subject id now).2.entries.length =
        manager.entries.length) ∨
    ((manager.sweepTouch subject id now).1 = manager.entries.length ∧
      (manager.sweepTouch subject id now).2.entries.length =
        manager.entries.length + 1) := by
  unfold sweepTouch touchTable
  split
  next by_ entry found =>
      exact .inl ⟨kept.table (Table.get_of_retain found),
        List.length_modify _ _ _⟩
  next => exact .inr ⟨rfl, List.length_append⟩

theorem get_of_touch {subject : String} {id other : SessionId} {now : ℕ}
    {value : String × ℕ}
    (found : (manager.sweepTouch subject id now).2.table.get other =
      some value) :
    manager.table.get other = some value ∨
      (other = id ∧ value.2 = (manager.sweepTouch subject id now).1) := by
  unfold sweepTouch touchTable at found ⊢
  split at found
  next => exact .inl (Table.get_of_retain found)
  next =>
    rcases Table.get_of_insert found with new | old
    · exact .inr ⟨new.1, congrArg Prod.snd new.2⟩
    · exact .inl (Table.get_of_retain old)

theorem get_exec {id : SessionId} {value : String × ℕ} (conditions : Conditions)
    (notTouch : ∀ subject id now, request ≠ .touch subject id now)
    (found : (exec conditions manager request).2.table.get id = some value) :
    manager.table.get id = some value := by
  cases request with
  | touch subject id now => exact absurd rfl (notTouch subject id now)
  | closeTable other => exact Table.get_of_close found
  | assemble caller kind agentId session token =>
      simp only [exec] at found
      split at found <;> exact found
  | tryBegin id =>
      simp only [exec, tryBegin] at found
      split at found <;> exact found
  | signal entry =>
      simp only [exec, signalEntry] at found
      split at found <;> exact found
  | _ => exact found

/-- Only a touch makes an entry. -/
theorem entries_exec (conditions : Conditions)
    (notTouch : ∀ subject id now, request ≠ .touch subject id now) :
    (exec conditions manager request).2.entries.length =
      manager.entries.length := by
  cases request with
  | touch subject id now => exact absurd rfl (notTouch subject id now)
  | forget entry => exact List.length_modify _ _ _
  | lower entry => exact List.length_modify _ _ _
  | publish entry handle => exact List.length_modify _ _ _
  | assemble caller kind agentId session token =>
      simp only [exec]
      split <;> rfl
  | tryBegin id =>
      simp only [exec, tryBegin]
      split <;> rfl
  | signal entry =>
      simp only [exec, signalEntry]
      split
      next => rfl
      next => exact List.length_modify _ _ _
      next => rfl
  | _ => rfl

theorem table_exec (kept : Kept manager trace) (conditions : Conditions)
    {id : SessionId} {subject : String} {entry : ℕ}
    (found : (exec conditions manager request).2.table.get id =
      some (subject, entry)) :
    Entered (passed task manager request conditions :: trace) entry id := by
  by_cases touches : ∃ by_ other now, request = .touch by_ other now
  · obtain ⟨by_, other, now, same⟩ := touches
    subst same
    rcases get_of_touch found with old | new
    · exact (kept.table old).cons
    · exact entered_cons.mpr (.inl ⟨new.2.symm, new.1.symm⟩)
  · have notTouch : ∀ by_ other now, request ≠ .touch by_ other now :=
      fun by_ other now same => touches ⟨by_, other, now, same⟩
    exact (kept.table (get_exec conditions notTouch found)).cons

theorem entered_exec (kept : Kept manager trace) (conditions : Conditions)
    {entry : ℕ} {id : SessionId}
    (entered : Entered (passed task manager request conditions :: trace) entry
      id) : entry < (exec conditions manager request).2.entries.length := by
  by_cases touches : ∃ by_ other now, request = .touch by_ other now
  · obtain ⟨by_, other, now, same⟩ := touches
    subst same
    have more : manager.entries.length ≤
        (manager.sweepTouch by_ other now).2.entries.length := by
      rcases kept.touch_cases by_ other now with ⟨_, same⟩ | ⟨_, same⟩
      · exact same.ge
      · exact same.ge.trans' (Nat.le_succ _)
    rcases entered_cons.mp entered with given | earlier
    · have same : (manager.sweepTouch by_ other now).1 = entry := given.1
      rw [← same]
      rcases kept.touch_cases by_ other now with ⟨old, _⟩ | ⟨new, grown⟩
      · exact (kept.entered old).trans_le more
      · exact (new.trans_lt (Nat.lt_succ_self _)).trans_eq grown.symm
    · exact (kept.entered earlier).trans_le more
  · have notTouch : ∀ by_ other now, request ≠ .touch by_ other now :=
      fun by_ other now same => touches ⟨by_, other, now, same⟩
    rw [entered_cons_of_ne notTouch] at entered
    rw [entries_exec conditions notTouch]
    exact kept.entered entered

theorem session_exec (kept : Kept manager trace) (conditions : Conditions)
    {entry : ℕ} {id other : SessionId}
    (entered : Entered (passed task manager request conditions :: trace) entry
      id)
    (again : Entered (passed task manager request conditions :: trace) entry
      other) : id = other := by
  by_cases touches : ∃ by_ other now, request = .touch by_ other now
  · obtain ⟨by_, touched, now, same⟩ := touches
    subst same
    have one : ∀ {id}, Entered (passed task manager (.touch by_ touched now)
          conditions :: trace) entry id →
        (manager.sweepTouch by_ touched now).1 = entry → id = touched := by
      intro id entered given
      rcases entered_cons.mp entered with latest | earlier
      · exact latest.2.symm
      · rcases kept.touch_cases by_ touched now with ⟨old, _⟩ | ⟨new, _⟩
        · rw [given] at old
          exact kept.session earlier old
        · have inside := kept.entered earlier
          rw [← given, new] at inside
          exact absurd inside (Nat.lt_irrefl _)
    by_cases given : (manager.sweepTouch by_ touched now).1 = entry
    · exact (one entered given).trans (one again given).symm
    · have old : ∀ {id}, Entered (passed task manager (.touch by_ touched now)
          conditions :: trace) entry id → Entered trace entry id := by
        intro id entered
        rcases entered_cons.mp entered with latest | earlier
        · exact absurd latest.1 given
        · exact earlier
      exact kept.session (old entered) (old again)
  · have notTouch : ∀ by_ other now, request ≠ .touch by_ other now :=
      fun by_ other now same => touches ⟨by_, other, now, same⟩
    rw [entered_cons_of_ne notTouch] at entered again
    exact kept.session entered again

theorem makes_exec {conditions : Conditions} {handle : ℕ}
    (makes : request.Makes handle (exec conditions manager request).1) :
    handle = manager.handles ∧
      (exec conditions manager request).2.handles = manager.handles + 1 := by
  cases request with
  | assemble caller kind agentId session token =>
      simp only [exec] at makes ⊢
      cases assembled : conditions.assembled with
      | ok notices =>
          simp only [assembled] at makes ⊢
          exact ⟨makes.symm, trivial⟩
      | error error =>
          simp only [assembled] at makes
          exact makes.elim
  | _ => exact makes.elim

theorem handles_exec (conditions : Conditions) (manager : Manager parts)
    (request : Section) :
    manager.handles ≤ (exec conditions manager request).2.handles := by
  cases request with
  | touch subject id now =>
      simp only [exec, sweepTouch, touchTable]
      split <;> exact le_rfl
  | assemble caller kind agentId session token =>
      simp only [exec]
      split
      next => exact Nat.le_succ _
      next => exact le_rfl
  | tryBegin id =>
      simp only [exec, tryBegin]
      split <;> exact le_rfl
  | signal entry =>
      simp only [exec, signalEntry]
      split <;> exact le_rfl
  | _ => exact le_rfl

theorem made_exec (kept : Kept manager trace) (conditions : Conditions)
    {maker handle : ℕ}
    (made : Made (passed task manager request conditions :: trace) maker
      handle) : handle < (exec conditions manager request).2.handles := by
  rcases made_cons.mp made with latest | earlier
  · obtain ⟨same, grown⟩ := makes_exec latest.2
    rw [same, grown]
    exact Nat.lt_succ_self _
  · exact (kept.made earlier).trans_le (handles_exec conditions manager request)

theorem maker_exec (kept : Kept manager trace) (conditions : Conditions)
    {maker other handle : ℕ}
    (made : Made (passed task manager request conditions :: trace) maker handle)
    (again : Made (passed task manager request conditions :: trace) other
      handle) : maker = other := by
  have fresh : ∀ {maker}, Made trace maker handle →
      ¬request.Makes handle (exec conditions manager request).1 := by
    intro maker earlier makes
    have inside := kept.made earlier
    rw [(makes_exec makes).1] at inside
    exact Nat.lt_irrefl _ inside
  rcases made_cons.mp made with latest | earlier
  · rcases made_cons.mp again with otherLatest | otherEarlier
    · exact latest.1.symm.trans otherLatest.1
    · exact absurd latest.2 (fresh otherEarlier)
  · rcases made_cons.mp again with otherLatest | otherEarlier
    · exact absurd otherLatest.2 (fresh earlier)
    · exact kept.maker earlier otherEarlier

theorem publishes_exec {entry handle : ℕ}
    (allowed : protocol.allows stage request)
    (known : knows task stage manager trace)
    (publishes : request.Publishes entry handle) :
    Made trace task handle ∧ ∀ other, ¬Published trace other handle := by
  cases request with
  | publish other given =>
      obtain ⟨sameEntry, sameHandle⟩ := publishes
      subst sameEntry
      subst sameHandle
      obtain ⟨id, permit, same⟩ := stage_of_publish allowed
      subst same
      exact ⟨known.2.2.1, known.2.2.2.1⟩
  | _ => exact publishes.elim

theorem published_exec (kept : Kept manager trace) (conditions : Conditions)
    (allowed : protocol.allows stage request)
    (known : knows task stage manager trace) {entry handle : ℕ}
    (published : Published (passed task manager request conditions :: trace)
      entry handle) :
    handle < (exec conditions manager request).2.handles := by
  apply Nat.lt_of_lt_of_le _ (handles_exec conditions manager request)
  rcases published_cons.mp published with latest | earlier
  · exact kept.made (publishes_exec allowed known latest).1
  · exact kept.published earlier

theorem publisher_exec (kept : Kept manager trace) (conditions : Conditions)
    (allowed : protocol.allows stage request)
    (known : knows task stage manager trace) {entry other handle : ℕ}
    (published : Published (passed task manager request conditions :: trace)
      entry handle)
    (again : Published (passed task manager request conditions :: trace) other
      handle) : entry = other := by
  have new : ∀ {entry other}, request.Publishes entry handle →
      Published (passed task manager request conditions :: trace) other
        handle → request.Publishes other handle := by
    intro entry other latest again
    rcases published_cons.mp again with same | earlier
    · exact same
    · exact absurd earlier ((publishes_exec allowed known latest).2 other)
  have unique : request.Publishes entry handle →
      request.Publishes other handle → entry = other := by
    intro one two
    cases request with
    | publish given named => exact one.1.symm.trans two.1
    | _ => exact one.elim
  rcases published_cons.mp published with latest | earlier
  · exact unique latest (new latest again)
  · rcases published_cons.mp again with latest | otherEarlier
    · exact unique (new latest published) latest
    · exact kept.publisher earlier otherEarlier

theorem slot_modify_back {entry other handle : ℕ} {change : Entry → Entry}
    {flag : Bool}
    (found : slot { manager with
      entries := manager.entries.modify other change } entry =
      some (some handle, flag))
    (keeps : ∀ entry, (change entry).cancel = some handle →
      entry.cancel = some handle) :
    ∃ flag, manager.slot entry = some (some handle, flag) := by
  rw [slot_modify] at found
  split at found
  next =>
    obtain ⟨there, here, same⟩ := Option.map_eq_some_iff.mp found
    refine ⟨there.cancelRequested, ?_⟩
    unfold slot
    rw [here, Option.map_some, keeps there (congrArg Prod.fst same)]
  next => exact ⟨flag, found⟩

/-- A new entry has no handle. -/
theorem slot_touch_back {subject : String} {id : SessionId} {now entry : ℕ}
    {handle : ℕ} {flag : Bool}
    (found : (manager.sweepTouch subject id now).2.slot entry =
      some (some handle, flag)) :
    ∃ flag, manager.slot entry = some (some handle, flag) := by
  unfold sweepTouch touchTable at found
  split at found
  next =>
    have swept := slot_modify_back found fun _ same => same
    exact swept
  next =>
    have inside : entry < manager.entries.length := by
      by_contra outside
      obtain ⟨there, here, value⟩ := Option.map_eq_some_iff.mp found
      have new : (manager.entries ++
          [{ cancel := none, cancelRequested := false, lastUsed := now }])[entry]? =
            some there := here
      rw [List.getElem?_append_right (Nat.not_lt.mp outside)] at new
      have member := List.mem_of_getElem? new
      rw [List.mem_singleton] at member
      rw [member] at value
      cases value
    refine ⟨flag, ?_⟩
    rw [← found]
    have swept : entry < (manager.sweep now).entries.length := inside
    unfold slot
    dsimp only
    rw [List.getElem?_append_left swept]
    rfl

/-- A handle in an entry was there before, or has just been published. -/
theorem slot_back {conditions : Conditions} {entry handle : ℕ} {flag : Bool}
    (found : (exec conditions manager request).2.slot entry =
      some (some handle, flag)) :
    request.Publishes entry handle ∨
      ∃ flag, manager.slot entry = some (some handle, flag) := by
  cases request with
  | publish other given =>
      simp only [exec, slot_modify] at found
      split at found
      next same =>
        left
        obtain ⟨there, here, value⟩ := Option.map_eq_some_iff.mp found
        exact ⟨same, Option.some.inj (congrArg Prod.fst value)⟩
      next => exact .inr ⟨flag, found⟩
  | forget other =>
      exact .inr (slot_modify_back found (by intro entry gone; cases gone))
  | lower other => exact .inr (slot_modify_back found fun _ same => same)
  | signal other =>
      right
      simp only [exec, signalEntry] at found
      split at found
      next => exact ⟨flag, found⟩
      next => exact slot_modify_back found fun _ same => same
      next => exact ⟨flag, found⟩
  | touch subject id now => exact .inr (slot_touch_back found)
  | assemble caller kind agentId session token =>
      right
      simp only [exec] at found
      split at found <;> exact ⟨flag, found⟩
  | tryBegin id =>
      right
      simp only [exec, tryBegin] at found
      split at found <;> exact ⟨flag, found⟩
  | _ => exact .inr ⟨flag, found⟩

theorem slots_exec (kept : Kept manager trace) (conditions : Conditions)
    {entry handle : ℕ} {flag : Bool}
    (found : (exec conditions manager request).2.slot entry =
      some (some handle, flag)) :
    Published (passed task manager request conditions :: trace) entry
      handle := by
  rcases slot_back found with latest | earlier
  · exact published_cons.mpr (.inl latest)
  · obtain ⟨flag, found⟩ := earlier
    exact (kept.slots found).cons

theorem cancelled_lt (kept : Kept manager trace) (conditions : Conditions)
    (allowed : protocol.allows stage request)
    (known : knows task stage manager trace) {handle : ℕ}
    (cancelled : (exec conditions manager request).2.cancelled handle = true) :
    handle < (exec conditions manager request).2.handles := by
  apply Nat.lt_of_lt_of_le _ (handles_exec conditions manager request)
  by_cases cancels : request = .cancelHandle handle
  · subst cancels
    obtain ⟨id, permit, entry, same⟩ := stage_of_cancelHandle allowed
    subst same
    exact kept.made known.made
  by_cases published : ∃ entry, Published trace entry handle
  · obtain ⟨entry, published⟩ := published
    exact kept.published published
  · have same : (exec conditions manager request).2.cancelled handle =
        manager.cancelled handle := by
      apply uncancelled_exec kept conditions cancels
      intro entry is
      exact published ⟨entry, is⟩
    rw [same] at cancelled
    exact kept.cancelled cancelled

theorem ended_exec (kept : Kept manager trace) (conditions : Conditions)
    (allowed : protocol.allows stage request)
    (known : knows task stage manager trace) {turn : Turn} {handle : ℕ}
    {before : Manager parts} {earlier : Trace parts}
    (ended : Ended (passed task manager request conditions :: trace) turn handle
      before earlier) :
    before.cancelled handle = signalledSince turn.entry earlier := by
  obtain ⟨ender, suffix⟩ := ended
  rcases List.suffix_cons_iff.mp suffix with latest | older
  · obtain ⟨same, rest⟩ := List.cons.inj latest
    subst rest
    cases request with
    | turnEnded other given =>
        cases same
        have same := stage_of_turnEnded allowed
        subst same
        obtain ⟨flag, _, told⟩ := known.slot
        exact told
    | _ => cases same
  · exact kept.ended ⟨ender, older⟩

theorem exec (kept : Kept manager trace) (conditions : Conditions)
    (allowed : protocol.allows stage request)
    (known : knows task stage manager trace) :
    Kept (Manager.exec conditions manager request).2
      (passed task manager request conditions :: trace) where
  gate := kept.gate_exec conditions
  permits := kept.permits_exec conditions
  table := kept.table_exec conditions
  entered := kept.entered_exec conditions
  session := kept.session_exec conditions
  made := kept.made_exec conditions
  maker := kept.maker_exec conditions
  published := kept.published_exec conditions allowed known
  publisher := kept.publisher_exec conditions allowed known
  slots := kept.slots_exec conditions
  cancelled := kept.cancelled_lt conditions allowed known
  ended := kept.ended_exec conditions allowed known

end Kept

/-- A task that has a permit knows the session whose gate it holds. -/
theorem holder_of_knows {manager : Manager parts} {trace : Trace parts}
    {task permit : ℕ} {stage : Stage} (known : knows task stage manager trace)
    (has : stage.permit = some permit) : ∃ id, holder id trace = some permit := by
  cases stage with
  | permitted id given =>
      cases has
      exact ⟨id, known⟩
  | touched id given entry =>
      cases has
      exact ⟨id, known.holder⟩
  | finished id given =>
      cases has
      exact ⟨id, known⟩
  | forgotten id given entry =>
      cases has
      exact ⟨id, known.1.holder⟩
  | lowered id given entry =>
      cases has
      exact ⟨id, known.1.holder⟩
  | begun id given entry =>
      cases has
      exact ⟨id, known.1.holder⟩
  | assembled id given entry handle =>
      cases has
      exact ⟨id, known.1.holder⟩
  | published id given entry handle =>
      cases has
      exact ⟨id, known.holds.holder⟩
  | asked id given entry handle requested =>
      cases has
      exact ⟨id, known.holds.holder⟩
  | running id given entry handle =>
      cases has
      exact ⟨id, known.holds.holder⟩
  | _ => cases has

/-- A permit that a task did not have is new. -/
theorem renews_permit {manager : Manager parts} {trace : Trace parts}
    {permit : ℕ} {stage : Stage} {request : Section}
    (conditions : Conditions) (kept : Kept manager trace)
    (allowed : protocol.allows stage request)
    (has : (stage.next request (exec conditions manager request).1).permit =
      some permit) :
    stage.permit = some permit ∨
      ∀ other otherStage, knows other otherStage manager trace →
        otherStage.permit ≠ some permit := by
  rcases allowed with passive | active
  · rw [next_passive stage passive] at has
    exact .inl has
  cases stage with
  | free =>
      cases request with
      | isClosed id =>
          simp only [Stage.next] at has
          split at has <;> cases has
      | isActive id =>
          simp only [Stage.next] at has
          split at has <;> cases has
      | assemble caller kind agentId session token => cases has
      | reopen id => cases has
      | closeTable id => cases has
      | _ => exact active.elim
  | checked id =>
      cases request with
      | tryBegin other =>
          rcases tryBegin_cases manager other with
            ⟨begun, _, _, _⟩ | ⟨error, refused, _, _⟩
          · simp only [exec, begun] at has
            right
            intro task stage known held
            obtain ⟨given, holds⟩ := holder_of_knows known held
            have older := kept.permits holds
            have same : manager.permits = permit := Option.some.inj has
            rw [same] at older
            exact Nat.lt_irrefl _ older
          · simp only [exec, refused] at has
            cases has
      | _ => exact active.elim
  | begun id given entry =>
      cases request with
      | assemble caller kind agentId session token =>
          cases made : (exec conditions manager
              (.assemble caller kind agentId session token)).1 with
          | ok assembled =>
              rw [made] at has
              exact .inl has
          | error error =>
              rw [made] at has
              exact .inl has
      | _ => exact active.elim
  | saw id =>
      cases request with
      | entryOf other =>
          cases found : (exec conditions manager (.entryOf other)).1 with
          | none =>
              rw [found] at has
              cases has
          | some entry =>
              rw [found] at has
              cases has
      | _ => exact active.elim
  | _ =>
      cases request <;> first
        | exact active.elim
        | exact .inl has
        | cases has

/-- What holds in every pool of calls: the tasks with a permit are apart. -/
theorem cancellation_outline (parts : Parts) (limits : Limits) :
    Outline (system parts limits) protocol Outside Stage.permit
      Kept knows where
  obeys := program_obeys limits
  begins call task manager trace outside _ _ := by
    cases call with
    | turn turn => exact outside.elim
    | _ => trivial
  bare call outside := by
    cases call with
    | turn turn => exact outside.elim
    | _ => rfl
  keeps turn conditions := turn.inv.exec conditions turn.allowed turn.own
  reaches turn conditions := knows_next conditions turn.inv turn.own turn.allowed
  renews turn conditions held has := by
    exact renews_permit conditions turn.inv turn.allowed has
  frames turn conditions other otherStage different known apart :=
    knows_cons turn.inv conditions
      (leaves_other turn.inv conditions turn.allowed turn.own different apart)
      known
  spawned {task stage manager trace request} turn conditions call other spawns
      _ _ := by
    cases request with
    | spawn started =>
        cases spawns
        have same := stage_of_spawn turn.allowed
        subst same
        obtain ⟨holds, found⟩ := turn.own
        refine ⟨holds.cons (by simp) (by simp), found.trans ?_⟩
        rw [signalledSince_cons_of_ne (by simp) (by simp)]
    | _ => cases spawns
  passes {task stage manager trace request} turn conditions call held spawns
      has := by
    cases request with
    | spawn started =>
        cases spawns
        have same := stage_of_spawn turn.allowed
        subst same
        exact ⟨has, fun kept => by cases kept⟩
    | _ => cases spawns

theorem saw_of_reported
    {pool : Pool Call Section Section.Reply (Manager parts) Answer}
    {stages : List Stage}
    (holds : Outlined protocol Stage.permit Kept knows pool stages)
    {task : ℕ} {id : SessionId} (reported : Reported pool task id) :
    ∃ permit, Saw pool.trace task id permit := by
  obtain ⟨subject, found⟩ := reported
  obtain ⟨stage, staged, ends⟩ := holds.stage_of_task found
  have signalled : stage = .signalled id := ends
  subst signalled
  exact holds.own staged

/-- After any calls in any order, every cancellation that was reported was
delivered exactly when each turn that one found active and that ran to its end
was signalled between the section in which its `send` lowered the flag and its
end. -/
theorem delivered_iff (parts : Parts) (limits : Limits) (admins : String → Bool)
    (hub : Hub parts.channels) (moves : List (Move Call Conditions))
    (admitted : ∀ move ∈ moves, move.Admitted Outside) :
    Delivered ((system parts limits).run
      (Manager.new parts limits admins hub) moves) ↔
    SignalledInTime ((system parts limits).run
      (Manager.new parts limits admins hub) moves) := by
  have begins : Kept (Manager.new parts limits admins hub) [] := by
    constructor
    case gate => exact fun id => parts.gate.isActive_new id
    case ended =>
      intro turn handle before earlier ended
      obtain ⟨task, suffix⟩ := ended
      exact absurd (List.suffix_nil.mp suffix) (List.cons_ne_nil _ _)
    all_goals simp [Manager.new, holder, Table.new, Table.get, Entered, Made,
      Published, slot]
  obtain ⟨stages, holds⟩ :=
    (cancellation_outline parts limits).run begins moves admitted
  constructor
  · intro delivered task id reported permit saw turn handle before earlier same
      ended
    rw [← holds.inv.ended ended]
    exact (delivered task id reported).2 permit saw turn handle before earlier
      same ended
  · intro timely task id reported
    refine ⟨saw_of_reported holds reported, ?_⟩
    intro permit saw turn handle before earlier same ended
    rw [holds.inv.ended ended]
    exact timely task id reported permit saw turn handle before earlier same
      ended

/-- A run of calls on a session that is in memory. -/
def cancelling (moves : List (Move Call Conditions)) :
    Pool Call Section Section.Reply
      (Manager ⟨Ring.broadcast SessionEvent, TurnGate.listed⟩) Answer :=
  (system ⟨Ring.broadcast SessionEvent, TurnGate.listed⟩ ⟨8, 1000⟩).run
    (Manager.new _ ⟨8, 1000⟩ (fun _ => false) (Hub.new _ false 256))
    (.start (.resume "alice" "s") :: List.replicate 9 (.step 0 {}) ++ moves)

/-- The session is cancelled between the section that gives the permit to a
`send` and the one that lowers the flag; then the turn runs. -/
def cancelledEarly : List (Move Call Conditions) :=
  [.start (.send "alice" "s" "text" none), .start (.cancel "alice" "s")] ++
    List.replicate 5 (.step 1 {}) ++ List.replicate 6 (.step 2 {}) ++
    List.replicate 5 (.step 1 {}) ++ List.replicate 4 (.step 3 {})

/-- The turn of that run. -/
def uncancelled : Turn :=
  { permit := 0, entry := 0
    caller := { userId := 1, subject := "alice", isAdmin := false }
    kind := .work, agentId := "agent", session := "s", token := none
    text := "text" }

theorem admitted_cancelledEarly : ∀ move ∈
    .start (.resume "alice" "s") :: List.replicate 9 (.step 0 {}) ++
      (cancelledEarly ++ [.step 3 {}]), move.Admitted Outside := by
  simp [cancelledEarly, Move.Admitted, Outside, or_imp, forall_and]

theorem undelivered_cancelledEarly :
    ¬Delivered (cancelling (cancelledEarly ++ [.step 3 {}])) := by
  intro delivered
  have reported : Reported (cancelling (cancelledEarly ++ [.step 3 {}])) 2
      "s" := ⟨"alice", rfl⟩
  have saw : Saw (cancelling (cancelledEarly ++ [.step 3 {}])).trace 2 "s" 0 := by
    have found : (cancelling (cancelledEarly ++ [.step 3 {}])).trace.drop 12 =
        _ :: (cancelling (cancelledEarly ++ [.step 3 {}])).trace.drop 13 := rfl
    exact ⟨_, _, found ▸ List.drop_suffix 12 _, rfl⟩
  have ended : Ended (cancelling (cancelledEarly ++ [.step 3 {}])).trace
      uncancelled 1 (cancelling cancelledEarly).shared
      (cancelling cancelledEarly).trace :=
    ⟨3, List.suffix_refl _⟩
  have cancelled := (delivered 2 "s" reported).2 0 saw uncancelled 1 _ _ rfl
    ended
  exact absurd cancelled (by decide +kernel)

theorem unsignalled_cancelledEarly :
    ¬SignalledInTime (cancelling (cancelledEarly ++ [.step 3 {}])) := by
  intro timely
  apply undelivered_cancelledEarly
  exact (delivered_iff _ _ _ _ _ admitted_cancelledEarly).mpr timely

/-- A cancellation that was reported may be lost. -/
theorem cancellation_lost :
    ¬∀ moves : List (Move Call Conditions),
      (∀ move ∈ moves, move.Admitted Outside) →
      Delivered (cancelling moves) := by
  intro all
  apply undelivered_cancelledEarly
  apply all
  intro move member
  exact admitted_cancelledEarly move (List.mem_append_right _ member)

end MiryadCore.Interactive.Manager
