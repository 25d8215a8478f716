import MiryadCore.Chat.LinkSafety
import MiryadCore.Control.History

/-!
# The wrong codes of a Matrix identifier

A wrong code is refused, and counted in a window that opens at the first one;
five in the window, and the codes of the identifier are refused unseen until it
closes.  What the window has forgotten, and what the calls in progress have
still to count, is not seen when a call is let through.
-/

namespace MiryadCore.Chat

open Interactive

/-- `ATTEMPT_WINDOW`, in nanoseconds. -/
def windowSpan : ℤ := ATTEMPT_WINDOW * nanosPerSecond

/-- An instant lies in the ten minutes that start there. -/
def within (start now : ℤ) : Bool :=
  start ≤ now && now < start + windowSpan

namespace Passage

/-- A success forgets the failures of the identifier. -/
def resets (mxid : String) : Passage → Bool
  | ⟨_, _, .clearAttempts other, _⟩ => other = mxid
  | _ => false

/-- The instant of a failure of the identifier that is counted. -/
def records (mxid : String) : Passage → Option Instant
  | ⟨_, _, .recordFailure other now, _⟩ =>
      if other = mxid then some now else none
  | _ => none

end Passage

/-- No live code among the rows is this one. -/
def wrong (sha : Sha256) (rows : List LinkCode) (code : String)
    (now : Instant) : Bool :=
  match findCode rows (hashCode sha code) with
  | none => true
  | some row => row.expiresAt ≤ now

/-- The instant at which the identifier presented a wrong code that is
compared with the stored ones. -/
def Passage.compares (sha : Sha256) (calls : ℕ → Option Call) (mxid : String) :
    Passage → Option Instant
  | ⟨task, _, .statement .codes, .ok rows⟩ =>
      match calls task with
      | some (.consume other code now) =>
          if other = mxid ∧ wrong sha rows code now = true then some now
          else none
      | _ => none
  | _ => none

/-- What took place since the latest success of the identifier. -/
def since (mxid : String) (trace : Trace) : Trace :=
  trace.takeWhile fun passage => !passage.resets mxid

def recorded (mxid : String) (trace : Trace) : List Instant :=
  (since mxid trace).filterMap (Passage.records mxid)

def compared (sha : Sha256) (calls : ℕ → Option Call) (mxid : String)
    (trace : Trace) : List Instant :=
  (since mxid trace).filterMap (Passage.compares sha calls mxid)

/-- The call of a task. -/
def callOf (pool : Calls) (task : ℕ) : Option Call :=
  (pool.tasks[task]?).map Prod.fst

/-- What the limit on the attempts ought to be: in no ten minutes are more
wrong codes of an identifier compared since its latest success, and what it
presents further in them is refused unseen; but none before that many failures
are counted. -/
structure Limited (sha : Sha256) (pool : Calls) : Prop where
  bounded : ∀ mxid start,
    (compared sha (callOf pool) mxid pool.trace).countP (within start) ≤
      ATTEMPT_LIMIT
  refused : ∀ {task mxid code now script later earlier passage start},
    pool.tasks[task]? = some (.consume mxid code now, script) →
    pool.trace = later ++ passage :: earlier → passage.task = task →
    passage.request = .rateLimited mxid now → within start now = true →
    ATTEMPT_LIMIT ≤
      (compared sha (callOf pool) mxid earlier).countP (within start) →
    script = .done (.consumed (.error (.forbidden "too many attempts"))) ∧
      ∀ other ∈ pool.trace, other.task = task → other = passage
  resets : ∀ {later earlier task s mxid now},
    pool.trace = later ++ ⟨task, s, .rateLimited mxid now, true⟩ :: earlier →
    ATTEMPT_LIMIT ≤ (recorded mxid earlier).length

namespace Directory

/-- The failures in the present window of the identifier. -/
def counted (s : Directory) (mxid : String) (now : Instant) : ℕ :=
  match s.attempts.lookup mxid with
  | some (count, windowStart) =>
      if secondsSince now windowStart < ATTEMPT_WINDOW then count else 0
  | none => 0

def notBefore (start failure : ℤ) : Bool :=
  start ≤ failure

/-- A failure in the last ten minutes that the present window leaves out. -/
def forgets (s : Directory) (mxid : String) (now failure : ℤ) : Bool :=
  now - windowSpan < failure &&
    match s.attempts.lookup mxid with
    | some (_, windowStart) =>
        !(secondsSince now windowStart < ATTEMPT_WINDOW &&
          notBefore windowStart failure)
    | none => true

end Directory

/-- The call was let through, and has still to compare its code or to count
that it was wrong. -/
def pending (mxid : String) :
    Call × Script Request Request.Reply Answer → Bool
  | (.consume other _ _, .call (.statement .codes) _) => other = mxid
  | (.consume other _ _, .call (.recordFailure _ _) _) => other = mxid
  | _ => false

/-- The identifier and the instant of the check that a task is about to make. -/
def checking (pool : Calls) (task : ℕ) : Option (String × Instant) :=
  match pool.tasks[task]? with
  | some (.consume mxid _ now, .call (.rateLimited _ _) _) => some (mxid, now)
  | _ => none

/-- A call that is let through leaves room for the failures that the window has
forgotten and for those of the calls in progress. -/
def Roomy (pool : Calls) (task : ℕ) : Prop :=
  ∀ check ∈ checking pool task,
    pool.shared.rateLimited check.1 check.2 = false →
    pool.shared.counted check.1 check.2 +
        (recorded check.1 pool.trace).countP
          (pool.shared.forgets check.1 check.2) +
        pool.tasks.countP (pending check.1) <
      ATTEMPT_LIMIT

instance (pool : Calls) (task : ℕ) : Decidable (Roomy pool task) :=
  inferInstanceAs (Decidable (∀ check ∈ checking pool task, _ → _))

/-- Each move of a run leaves room. -/
def RoomyRun (sha : Sha256) (s : Directory)
    (moves : List (Move Call Conditions)) : Prop :=
  ∀ earlier task conditions, earlier ++ [.step task conditions] <+: moves →
    Roomy ((system sha).run s earlier) task

/-- The task of a move. -/
def movedTask : Move Call Conditions → Option ℕ
  | .start _ => none
  | .step task _ => some task

theorem roomyRun_iff {sha : Sha256} {s : Directory}
    {moves : List (Move Call Conditions)} :
    RoomyRun sha s moves ↔ ∀ place < moves.length,
      ∀ move ∈ moves[place]?, ∀ task ∈ movedTask move,
        Roomy ((system sha).run s (moves.take place)) task := by
  constructor
  · intro roomy place inside move found task mine
    cases move with
    | start call => cases mine
    | step other conditions =>
        obtain rfl := Option.some.inj mine
        apply roomy _ _ conditions
        obtain ⟨_, same⟩ := List.getElem?_eq_some_iff.mp found
        rw [← same, List.take_append_getElem]
        exact List.take_prefix _ _
  · intro roomy earlier task conditions begins
    obtain ⟨more, rfl⟩ := begins
    have inside := roomy earlier.length (by simp) (.step task conditions)
      (by simp) task rfl
    rwa [List.append_assoc, List.take_left] at inside

instance (sha : Sha256) (s : Directory) (moves : List (Move Call Conditions)) :
    Decidable (RoomyRun sha s moves) :=
  decidable_of_iff _ roomyRun_iff.symm

/-- What the counter of an identifier tells of its failures since the latest
success. -/
def Counts (failures : List Instant) : Option (ℕ × Instant) → Prop
  | none => failures = []
  | some (count, windowStart) =>
      count ≤ failures.length ∧
      (∀ failure ∈ failures,
        Directory.secondsSince failure windowStart < ATTEMPT_WINDOW) ∧
      (ATTEMPT_LIMIT ≤ count ∨
        failures.countP (Directory.notBefore windowStart) ≤ count)

theorem fresh_iff {now start : ℤ} :
    Directory.secondsSince now start < ATTEMPT_WINDOW ↔
      now < start + windowSpan := by
  unfold Directory.secondsSince windowSpan ATTEMPT_WINDOW nanosPerSecond
  by_cases later : start ≤ now
  · rw [Int.tdiv_eq_ediv_of_nonneg (by omega)]
    omega
  · have positive : 0 ≤ start - now := by omega
    have turned := Int.neg_tdiv (start - now) 1000000000
    rw [Int.neg_sub, Int.tdiv_eq_ediv_of_nonneg positive] at turned
    omega

/-- The entry of an identifier once a failure is recorded. -/
def nextEntry (entry : Option (ℕ × Instant)) (now : Instant) : ℕ × Instant :=
  let (count, windowStart) := entry.getD (0, now)
  if Directory.secondsSince now windowStart < ATTEMPT_WINDOW then
    (min (count + 1) (2 ^ 32 - 1), windowStart)
  else (1, now)

theorem Counts.record {failures : List Instant} {entry : Option (ℕ × Instant)}
    (counts : Counts failures entry) (now : ℤ) :
    Counts (now :: failures) (some (nextEntry entry now)) := by
  have alone : Directory.secondsSince now now < ATTEMPT_WINDOW := by
    rw [fresh_iff]
    unfold windowSpan ATTEMPT_WINDOW nanosPerSecond
    omega
  have first : Directory.notBefore now now = true := by
    unfold Directory.notBefore
    simp
  cases entry with
  | none =>
      obtain rfl : failures = [] := counts
      unfold nextEntry
      simp only [Option.getD_none, if_pos alone]
      refine ⟨by simp, ?_, ?_⟩
      · intro failure member
        obtain rfl := List.mem_singleton.mp member
        exact alone
      · right
        simp [first]
  | some entry =>
      obtain ⟨count, windowStart⟩ := entry
      obtain ⟨few, inside, all⟩ := counts
      unfold nextEntry
      dsimp only [Option.getD_some]
      split
      next fresh =>
        refine ⟨?_, ?_, ?_⟩
        · rw [List.length_cons]
          omega
        · intro failure member
          rcases List.mem_cons.mp member with latest | earlier
          · exact latest ▸ fresh
          · exact inside failure earlier
        · rw [List.countP_cons]
          unfold ATTEMPT_LIMIT at all ⊢
          split <;> omega
      next stale =>
        refine ⟨by simp, ?_, ?_⟩
        · intro failure member
          rcases List.mem_cons.mp member with latest | earlier
          · exact latest ▸ alone
          · have before := inside failure earlier
            rw [fresh_iff] at before stale ⊢
            unfold windowSpan ATTEMPT_WINDOW nanosPerSecond at *
            omega
        · right
          have none : failures.countP (Directory.notBefore now) = 0 := by
            rw [List.countP_eq_zero]
            intro failure member
            have before := inside failure member
            rw [fresh_iff] at before stale
            unfold Directory.notBefore
            rw [decide_eq_true_eq]
            omega
          simp [none, first]

/-- The counter of each identifier tells of its failures. -/
def Counter (s : Directory) (trace : Trace) : Prop :=
  ∀ mxid, Counts (recorded mxid trace) (s.attempts.lookup mxid)

theorem attempts_of_exec (conditions : Conditions) (s : Directory)
    (statement : Statement) :
    (exec conditions s (.statement statement)).2.attempts = s.attempts := by
  rcases exec_cases conditions s statement with
    ⟨text, same⟩ | ⟨text, same⟩ | ⟨reply, after, performs, same⟩
  · rw [same]
    cases statement <;> rfl
  · rw [same]
  · rw [same]
    cases statement with
    | insertCode row =>
        simp only [Directory.perform] at performs
        split at performs <;> cases performs <;> rfl
    | eraseCode tx codeHash =>
        simp only [Directory.perform] at performs
        split at performs <;> cases performs <;> rfl
    | insertLink tx link =>
        simp only [Directory.perform] at performs
        split at performs <;> cases performs
        rfl
    | _ =>
        cases performs
        rfl

theorem recorded_cons (mxid : String) (passage : Passage) (trace : Trace) :
    recorded mxid (passage :: trace) =
      if passage.resets mxid = true then []
      else (passage.records mxid).toList ++ recorded mxid trace := by
  unfold recorded since
  rw [List.takeWhile_cons]
  cases passage.resets mxid with
  | true => rfl
  | false =>
      simp only [Bool.not_false, if_true, Bool.false_eq_true, if_false,
        List.filterMap_cons]
      cases passage.records mxid <;> rfl

theorem compared_cons (sha : Sha256) (calls : ℕ → Option Call) (mxid : String)
    (passage : Passage) (trace : Trace) :
    compared sha calls mxid (passage :: trace) =
      if passage.resets mxid = true then []
      else (passage.compares sha calls mxid).toList ++
        compared sha calls mxid trace := by
  unfold compared since
  rw [List.takeWhile_cons]
  cases passage.resets mxid with
  | true => rfl
  | false =>
      simp only [Bool.not_false, if_true, Bool.false_eq_true, if_false,
        List.filterMap_cons]
      cases passage.compares sha calls mxid <;> rfl

/-- Every request keeps the counter. -/
theorem Counter.keeps {s : Directory} {trace : Trace}
    (counter : Counter s trace) (task : ℕ) (conditions : Conditions)
    (request : Request) :
    Counter (exec conditions s request).2
      (⟨task, s, request, (exec conditions s request).1⟩ :: trace) := by
  intro mxid
  have told := counter mxid
  rw [recorded_cons]
  cases request with
  | statement statement =>
      rw [attempts_of_exec]
      exact told
  | random =>
      have same : (exec conditions s .random).2 = s := by
        cases told : conditions.fault <;> simp [exec, told]
      rw [same]
      exact told
  | rateLimited other now => exact told
  | recordFailure other now =>
      by_cases mine : other = mxid
      · subst mine
        have entry : (exec conditions s
            (.recordFailure other now)).2.attempts.lookup other =
              some (nextEntry (s.attempts.lookup other) now) :=
          AList.lookup_insert _
        rw [entry]
        simpa [Passage.resets, Passage.records] using told.record now
      · have entry : (exec conditions s
            (.recordFailure other now)).2.attempts.lookup mxid =
              s.attempts.lookup mxid :=
          AList.lookup_insert_ne (Ne.symm mine)
        rw [entry]
        simpa [Passage.resets, Passage.records, mine] using told
  | clearAttempts other =>
      by_cases mine : other = mxid
      · subst mine
        have entry : (exec conditions s
            (.clearAttempts other)).2.attempts.lookup other = none :=
          AList.lookup_erase _ _
        rw [entry]
        simp [Passage.resets, Counts]
      · have entry : (exec conditions s
            (.clearAttempts other)).2.attempts.lookup mxid =
              s.attempts.lookup mxid :=
          AList.lookup_erase_ne (Ne.symm mine)
        rw [entry]
        simpa [Passage.resets, Passage.records, mine] using told

/-- How far a call that consumes a code is; `finished`, it asks nothing more. -/
inductive Phase where
  | checking (consumer : Consumer)
  | reading (consumer : Consumer)
  | recording (consumer : Consumer)
  | consuming (consumer : Consumer)
  | refused (consumer : Consumer)
  | finished
  | aside

namespace Phase

/-- The requests that follow the right code of a consumer. -/
def late (consumer : Consumer) : Request → Prop
  | .statement statement => statement ≠ .codes
  | .recordFailure mxid now => mxid = consumer.mxid ∧ now = consumer.now
  | .clearAttempts mxid => mxid = consumer.mxid
  | _ => False

/-- The requests of the other calls. -/
def other : Request → Prop
  | .statement statement => statement ≠ .codes
  | .random => True
  | _ => False

def allows : Phase → Request → Prop
  | .checking consumer, .rateLimited mxid now =>
      mxid = consumer.mxid ∧ now = consumer.now
  | .reading _, .statement .codes => True
  | .recording consumer, .recordFailure mxid now =>
      mxid = consumer.mxid ∧ now = consumer.now
  | .consuming consumer, request => late consumer request
  | .aside, request => other request
  | _, _ => False

def next (sha : Sha256) : Phase → (request : Request) → request.Reply → Phase
  | .checking consumer, .rateLimited _ _, limited =>
      if limited = true then .refused consumer else .reading consumer
  | .reading consumer, .statement .codes, .ok rows =>
      if wrong sha rows consumer.code consumer.now = true then
        .recording consumer
      else .consuming consumer
  | .reading _, .statement .codes, .error _ => .finished
  | .recording _, .recordFailure _ _, _ => .finished
  | phase, _, _ => phase

/-- The phase is one of this call. -/
def Of (call : Call) : Phase → Prop
  | .checking consumer => call = consumer.call
  | .reading consumer => call = consumer.call
  | .recording consumer => call = consumer.call
  | .consuming consumer => call = consumer.call
  | .refused consumer => call = consumer.call
  | .finished => ∃ consumer : Consumer, call = consumer.call
  | .aside => ∀ consumer : Consumer, call ≠ consumer.call

/-- A call may end so there. -/
def ends (phase : Phase) (answer : Answer) : Prop :=
  match phase with
  | .refused _ =>
      answer = .consumed (.error (.forbidden "too many attempts"))
  | .finished => True
  | .consuming _ => True
  | .aside => True
  | _ => False

end Phase

def attemptProtocol (sha : Sha256) :
    Protocol Call Request Request.Reply Answer Phase where
  start
    | .consume mxid code now => .checking { mxid, code, now }
    | _ => .aside
  allows := Phase.allows
  next := Phase.next sha
  ends _ := Phase.ends

theorem only_query {allowed : Request → Prop} {statement : Statement}
    (asks : allowed (.statement statement)) :
    Query.Only allowed (query statement) :=
  ⟨asks, fun _ => trivial⟩

theorem only_orRollback {allowed : Request → Prop} {tx : ℕ} {α : Type}
    {code : Code α} (rolls : allowed (.statement (.rollback tx)))
    (only : Query.Only allowed code) :
    Query.Only allowed (orRollback tx code) := by
  apply Query.Only.bind only.attempt
  intro result
  cases result with
  | ok value => trivial
  | error error => exact (only_query rolls).attempt.bind fun _ => trivial

theorem only_dropTx {allowed : Request → Prop} {tx : ℕ} {α : Type}
    {refusal : Code α} (rolls : allowed (.statement (.rollback tx)))
    (only : Query.Only allowed refusal) :
    Query.Only allowed (dropTx tx refusal) :=
  (only_query rolls).attempt.bind fun _ => only

theorem only_invalidCode (consumer : Consumer) {α : Type} :
    Query.Only (Phase.late consumer)
      (invalidCode consumer.mxid consumer.now : Code α) :=
  ⟨⟨rfl, rfl⟩, fun _ => trivial⟩

theorem only_consumeRow (consumer : Consumer) (row : LinkCode) :
    Query.Only (Phase.late consumer)
      (consumeRow consumer.mxid row consumer.now) := by
  have rolls : ∀ tx, Phase.late consumer (.statement (.rollback tx)) :=
    fun tx => by simp [Phase.late]
  have ends : ∀ tx, Query.Only (Phase.late consumer)
      (query (.commit tx) >>= fun _ =>
        get (.clearAttempts consumer.mxid) >>= fun _ =>
          (pure row.subject : Code String)) := by
    intro tx
    apply Query.Only.bind (only_query (by simp [Phase.late]))
    intro _
    exact ⟨rfl, fun _ => trivial⟩
  apply Query.Only.bind (only_query (by simp [Phase.late]))
  intro tx
  apply Query.Only.bind
    (only_orRollback (rolls tx) (only_query (by simp [Phase.late])))
  intro owner
  split
  next => exact only_dropTx (rolls tx) trivial
  next =>
    apply Query.Only.bind
      (only_orRollback (rolls tx) (only_query (by simp [Phase.late])))
    intro consumed
    split
    next => exact only_dropTx (rolls tx) (only_invalidCode consumer)
    next =>
      cases owner with
      | some owner => exact ends tx
      | none =>
          apply Query.Only.bind
            (only_orRollback (rolls tx) (only_query (by simp [Phase.late])))
          intro _
          exact ends tx

theorem only_deleteCodes (pending : List String) :
    Query.Only Phase.other (deleteCodes pending) := by
  induction pending with
  | nil => trivial
  | cons first pending induction =>
      exact (only_query (by simp [Phase.other])).bind fun _ => induction

theorem only_insertNew (sha : Sha256) (subject : String) (expiresAt : Instant)
    (left : ℕ) :
    Query.Only Phase.other (insertNew sha subject expiresAt left) := by
  induction left with
  | zero => trivial
  | succ left induction =>
      have draws : Query.Only Phase.other entropy :=
        ⟨trivial, fun _ => trivial⟩
      apply draws.bind
      intro bytes
      apply Query.Only.bind (only_query (by simp [Phase.other]))
      intro done
      split
      next => trivial
      next => exact induction

theorem stays_of_only {sha : Sha256} {phase : Phase} {allowed : Request → Prop}
    {α : Type} {script : Script Request Request.Reply α}
    (only : script.Only allowed)
    (allows : ∀ request, allowed request →
      (attemptProtocol sha).allows phase request)
    (stays : ∀ request, allowed request → ∀ answer,
      (attemptProtocol sha).next phase request answer = phase)
    {answer : α → Answer} (ends : ∀ value, phase.ends value) :
    Script.Obeys (attemptProtocol sha)
      (script.bind fun result => .done (answer result)) phase Phase.ends := by
  apply Script.Obeys.bind
  apply (only.obeys allows stays).mono
  intro after value same
  exact same ▸ ends _

theorem attempts_obey (sha : Sha256) (call : Call) :
    (program sha call).Obeys (attemptProtocol sha)
      ((attemptProtocol sha).start call) ((attemptProtocol sha).ends call) := by
  have aside : ∀ {α : Type} {code : Code α}
      {answer : Except LymailleError α → Answer},
      Query.Only Phase.other code →
      Script.Obeys (attemptProtocol sha)
        (Script.bind code fun result => .done (answer result)) .aside
        Phase.ends := by
    intro α code answer only
    apply stays_of_only only
    · exact fun request allowed => allowed
    · exact fun request _ _ => rfl
    · exact fun _ => trivial
  cases call with
  | issue caller now =>
      apply aside
      apply Query.Only.bind (only_query (by simp [Phase.other]))
      intro _
      apply Query.Only.bind (only_query (by simp [Phase.other]))
      intro rows
      apply Query.Only.bind (only_deleteCodes _)
      intro _
      exact only_insertNew sha caller.subject (expiry now) 5
  | unlink caller mxid =>
      apply aside
      exact (only_query (by simp [Phase.other])).bind fun _ => trivial
  | purge now =>
      apply aside
      exact only_query (by simp [Phase.other])
  | consume mxid code now =>
      refine ⟨⟨rfl, rfl⟩, ?_⟩
      intro limited
      cases limited with
      | true => rfl
      | false =>
          refine ⟨trivial, ?_⟩
          intro answer
          cases answer with
          | error text => trivial
          | ok rows =>
              change Script.Obeys _
                (Script.bind (match findCode rows (hashCode sha code) with
                  | none => invalidCode mxid now
                  | some row =>
                      if row.expiresAt ≤ now then invalidCode mxid now
                      else consumeRow mxid row now) _)
                (if wrong sha rows code now = true then
                  Phase.recording { mxid, code, now }
                else Phase.consuming { mxid, code, now }) _
              unfold wrong
              cases findCode rows (hashCode sha code) with
              | none => exact ⟨⟨rfl, rfl⟩, fun _ => trivial⟩
              | some row =>
                  dsimp only
                  by_cases expired : row.expiresAt ≤ now
                  · simp only [expired, if_true, decide_true]
                    exact ⟨⟨rfl, rfl⟩, fun _ => trivial⟩
                  · simp only [expired, if_false, decide_false,
                      Bool.false_eq_true]
                    apply stays_of_only
                      (only_consumeRow { mxid, code, now } row)
                    · exact fun request allowed => allowed
                    · exact fun request _ _ => rfl
                    · exact fun _ => trivial

/-- The call was refused for too many attempts. -/
def Passage.turnsAway : Passage → Bool
  | ⟨_, _, .rateLimited _ _, limited⟩ => limited
  | _ => false

/-- What the turns of a call tell of its phase. -/
def Phase.Tells (call : Call) (phase : Phase) (past : Trace) : Prop :=
  phase.Of call ∧
    match phase with
    | .refused _ => ∃ turn, past = [turn]
    | .checking _ => past = []
    | _ => ∀ turn ∈ past, turn.turnsAway = false

theorem tells_start (call : Call) :
    Phase.Tells call ((attemptProtocol sha).start call) [] := by
  cases call with
  | consume mxid code now => exact ⟨rfl, rfl⟩
  | _ => exact ⟨(fun _ same => nomatch same), fun _ member => nomatch member⟩

/-- The requests of each phase. -/
theorem allowed_cases {phase : Phase} {request : Request}
    (sha : Sha256) (allowed : phase.allows request) :
    (∃ consumer, phase = .checking consumer ∧
      request = .rateLimited consumer.mxid consumer.now) ∨
    (∃ consumer, phase = .reading consumer ∧ request = .statement .codes) ∨
    (∃ consumer, (phase = .recording consumer ∨ phase = .consuming consumer) ∧
      request = .recordFailure consumer.mxid consumer.now) ∨
    (∃ consumer, phase = .consuming consumer ∧
      request = .clearAttempts consumer.mxid) ∨
    (((∃ consumer, phase = .consuming consumer) ∨ phase = .aside) ∧
      Phase.other request ∧
      ∀ answer, Phase.next sha phase request answer = phase) := by
  cases phase with
  | checking consumer =>
      cases request with
      | rateLimited mxid now =>
          obtain ⟨rfl, rfl⟩ := allowed
          exact .inl ⟨consumer, rfl, rfl⟩
      | _ => exact allowed.elim
  | reading consumer =>
      cases request with
      | statement statement =>
          cases statement with
          | codes => exact .inr (.inl ⟨consumer, rfl, rfl⟩)
          | _ => exact allowed.elim
      | _ => exact allowed.elim
  | recording consumer =>
      cases request with
      | recordFailure mxid now =>
          obtain ⟨rfl, rfl⟩ := allowed
          exact .inr (.inr (.inl ⟨consumer, .inl rfl, rfl⟩))
      | _ => exact allowed.elim
  | consuming consumer =>
      cases request with
      | recordFailure mxid now =>
          obtain ⟨rfl, rfl⟩ := allowed
          exact .inr (.inr (.inl ⟨consumer, .inr rfl, rfl⟩))
      | clearAttempts mxid =>
          obtain rfl := allowed
          exact .inr (.inr (.inr (.inl ⟨consumer, rfl, rfl⟩)))
      | statement statement =>
          exact .inr (.inr (.inr (.inr
            ⟨.inl ⟨consumer, rfl⟩, allowed, fun _ => rfl⟩)))
      | _ => exact allowed.elim
  | refused consumer => exact allowed.elim
  | finished => exact allowed.elim
  | aside =>
      exact .inr (.inr (.inr (.inr ⟨.inr rfl, allowed, fun _ => rfl⟩)))

theorem tells_adds (call : Call) (phase : Phase) (past : Trace)
    (turn : Passage) (tells : Phase.Tells call phase past)
    (allowed : phase.allows turn.request) :
    Phase.Tells call (Phase.next sha phase turn.request turn.answer)
      (past ++ [turn]) := by
  obtain ⟨task, s, request, answer⟩ := turn
  obtain ⟨here, told⟩ := tells
  have goes : ∀ {quiet : Passage}, quiet.turnsAway = false →
      (∀ turn ∈ past, turn.turnsAway = false) →
      ∀ turn ∈ past ++ [quiet], turn.turnsAway = false := by
    intro quiet silent before turn member
    rcases List.mem_append.mp member with earlier | latest
    · exact before turn earlier
    · exact List.mem_singleton.mp latest ▸ silent
  rcases allowed_cases sha allowed with
    ⟨consumer, rfl, rfl⟩ | ⟨consumer, rfl, rfl⟩ | ⟨consumer, is, rfl⟩ |
    ⟨consumer, rfl, rfl⟩ | ⟨is, plain, stays⟩
  · obtain rfl : past = [] := told
    cases answer with
    | true => exact ⟨here, _, rfl⟩
    | false =>
        refine ⟨here, ?_⟩
        intro turn member
        exact List.mem_singleton.mp member ▸ rfl
  · cases answer with
    | error text => exact ⟨⟨consumer, here⟩, goes rfl told⟩
    | ok rows =>
        have leads : Phase.next sha (.reading consumer) (.statement .codes)
            (.ok rows) =
              if wrong sha rows consumer.code consumer.now = true then
                .recording consumer
              else .consuming consumer := rfl
        dsimp only
        rw [leads]
        split
        next => exact ⟨here, goes rfl told⟩
        next => exact ⟨here, goes rfl told⟩
  · rcases is with rfl | rfl
    · exact ⟨⟨consumer, here⟩, goes rfl told⟩
    · exact ⟨here, goes rfl told⟩
  · exact ⟨here, goes rfl told⟩
  · rw [stays]
    have silent : Passage.turnsAway ⟨task, s, request, answer⟩ = false := by
      cases request with
      | rateLimited mxid now => exact plain.elim
      | _ => rfl
    rcases is with ⟨consumer, rfl⟩ | rfl
    · exact ⟨here, goes silent told⟩
    · exact ⟨here, goes silent told⟩

end MiryadCore.Chat
