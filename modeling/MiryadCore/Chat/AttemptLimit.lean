import MiryadCore.Chat.LinkAttempts

/-!
# The limit on the wrong codes of a Matrix identifier

As long as each call that is let through leaves room for what the counter does
not show, no ten minutes see more wrong codes than there may be, and what is
presented further is refused.
-/

namespace MiryadCore.Chat

open Interactive

variable {sha : Sha256} {calls : ℕ → Option Call} {pool : Calls}

/-- A call of these ten minutes has still to compare its code. -/
def readingIn (mxid : String) (start : Instant) :
    Call × Script Request Request.Reply Answer → Bool
  | (.consume other _ now, .call (.statement .codes) _) =>
      other = mxid && within start now
  | _ => false

/-- A call of these ten minutes has still to count that its code was wrong. -/
def recordingIn (mxid : String) (start : Instant) :
    Call × Script Request Request.Reply Answer → Bool
  | (.consume other _ now, .call (.recordFailure _ _) _) =>
      other = mxid && within start now
  | _ => false

theorem countP_add_le {α : Type} {one other both : α → Bool} (items : List α)
    (first : ∀ item, one item = true → both item = true ∧ other item = false)
    (second : ∀ item, other item = true → both item = true) :
    items.countP one + items.countP other ≤ items.countP both := by
  induction items with
  | nil => exact Nat.le_refl 0
  | cons item items induction =>
      rw [List.countP_cons, List.countP_cons, List.countP_cons]
      by_cases here : one item = true
      · obtain ⟨counted, apart⟩ := first item here
        simp only [here, counted, apart, if_true, Bool.false_eq_true, if_false]
        omega
      · by_cases there : other item = true
        · simp only [there, second item there, if_true, if_neg here]
          omega
        · simp only [if_neg here, if_neg there]
          omega

theorem countP_le_add {α : Type} (all one other : α → Bool) (items : List α)
    (covers : ∀ item, all item = true → one item = true ∨ other item = true) :
    items.countP all ≤ items.countP one + items.countP other := by
  induction items with
  | nil => exact Nat.le_refl 0
  | cons item items induction =>
      rw [List.countP_cons, List.countP_cons, List.countP_cons]
      by_cases here : all item = true
      · rcases covers item here with there | there
        · simp only [here, there, if_true]
          omega
        · simp only [here, there, if_true]
          omega
      · rw [if_neg here]
        omega

theorem countP_set_add {α : Type} (holds : α → Bool) {items : List α}
    {place : ℕ} {old : α} (found : items[place]? = some old) (new : α) :
    (items.set place new).countP holds + (holds old).toNat =
      items.countP holds + (holds new).toNat := by
  obtain ⟨inside, same⟩ := List.getElem?_eq_some_iff.mp found
  have positive : holds old = true → 0 < items.countP holds := by
    intro counted
    exact List.countP_pos_iff.mpr ⟨old, same ▸ List.getElem_mem inside, counted⟩
  rw [List.countP_set inside, same]
  cases before : holds old with
  | true =>
      have here := positive before
      cases after : holds new <;> simp <;> omega
  | false => cases after : holds new <;> simp

theorem pending_of_in (mxid : String) (start : Instant)
    (tasks : List (Call × Script Request Request.Reply Answer)) :
    tasks.countP (readingIn mxid start) +
      tasks.countP (recordingIn mxid start) ≤ tasks.countP (pending mxid) := by
  apply countP_add_le
  · intro entry reads
    unfold readingIn at reads
    split at reads
    next other _ now _ =>
      rw [Bool.and_eq_true] at reads
      exact ⟨reads.1, rfl⟩
    next => cases reads
  · intro entry records
    unfold recordingIn at records
    split at records
    next other _ now _ _ _ =>
      rw [Bool.and_eq_true] at records
      exact records.1
    next => cases records

/-- These are the calls of the tasks. -/
def Agrees (calls : ℕ → Option Call) (pool : Calls) : Prop :=
  ∀ {task : ℕ} {entry}, pool.tasks[task]? = some entry →
    calls task = some entry.1

/-- Once so many wrong codes were compared, a call is refused. -/
def Refuses (sha : Sha256) (calls : ℕ → Option Call) (earlier : Trace) :
    Passage → Prop
  | ⟨_, _, .rateLimited mxid now, limited⟩ => ∀ start,
      within start now = true →
      ATTEMPT_LIMIT ≤
        (compared sha calls mxid earlier).countP (within start) →
      limited = true
  | _ => True

/-- A call is refused only once so many failures were counted. -/
def Forgives (earlier : Trace) : Passage → Prop
  | ⟨_, _, .rateLimited mxid _, limited⟩ =>
      limited = true → ATTEMPT_LIMIT ≤ (recorded mxid earlier).length
  | _ => True

structure Kept (sha : Sha256) (calls : ℕ → Option Call) (pool : Calls) :
    Prop where
  counter : Counter pool.shared pool.trace
  tells : ∀ mxid start,
    (compared sha calls mxid pool.trace).countP (within start) ≤
      (recorded mxid pool.trace).countP (within start) +
        pool.tasks.countP (recordingIn mxid start)
  room : ∀ mxid start,
    (compared sha calls mxid pool.trace).countP (within start) +
      pool.tasks.countP (readingIn mxid start) ≤ ATTEMPT_LIMIT
  refuses : Throughout (Refuses sha calls) pool.trace
  forgives : Throughout Forgives pool.trace

/-- The failures of ten minutes in which a call is let through are those that
the window counts, or has forgotten. -/
theorem counted_or_forgotten {s : Directory} {trace : Trace}
    (counter : Counter s trace) {mxid : String} {start now : ℤ}
    (inside : within start now = true)
    (passes : s.rateLimited mxid now = false) :
    (recorded mxid trace).countP (within start) ≤
      s.counted mxid now +
        (recorded mxid trace).countP (s.forgets mxid now) := by
  have told := counter mxid
  have recent : ∀ failure, within start failure = true →
      now - windowSpan < failure := by
    intro failure also
    unfold within at inside also
    simp only [Bool.and_eq_true, decide_eq_true_eq] at inside also
    omega
  unfold Directory.rateLimited at passes
  unfold Directory.counted
  cases entry : s.attempts.lookup mxid with
  | none =>
      rw [entry] at told
      have empty : recorded mxid trace = [] := told
      rw [empty]
      exact Nat.zero_le _
  | some entry' =>
      obtain ⟨count, windowStart⟩ := entry'
      rw [entry] at told passes
      obtain ⟨_, _, all⟩ := told
      dsimp only at passes ⊢
      have forgotten : ∀ failure, s.forgets mxid now failure =
          (decide (now - windowSpan < failure) &&
            !(decide (Directory.secondsSince now windowStart < ATTEMPT_WINDOW)
              && Directory.notBefore windowStart failure)) := by
        intro failure
        unfold Directory.forgets
        rw [entry]
      by_cases fresh : Directory.secondsSince now windowStart < ATTEMPT_WINDOW
      · rw [if_pos fresh]
        rw [decide_eq_true fresh, Bool.true_and, decide_eq_false_iff_not]
          at passes
        have few := all.resolve_left passes
        have covered := countP_le_add (within start)
          (Directory.notBefore windowStart) (s.forgets mxid now)
          (recorded mxid trace) ?_
        · omega
        intro failure also
        rw [forgotten, decide_eq_true (recent failure also),
          decide_eq_true fresh]
        cases Directory.notBefore windowStart failure with
        | true => exact .inl rfl
        | false => exact .inr rfl
      · rw [if_neg fresh, Nat.zero_add]
        apply List.countP_mono_left
        intro failure _ also
        rw [forgotten, decide_eq_true (recent failure also),
          decide_eq_false fresh]
        rfl

theorem Kept.spare (kept : Kept sha calls pool) {mxid : String}
    {start now : ℤ} (inside : within start now = true)
    (passes : pool.shared.rateLimited mxid now = false)
    (roomy : pool.shared.counted mxid now +
        (recorded mxid pool.trace).countP (pool.shared.forgets mxid now) +
        pool.tasks.countP (pending mxid) < ATTEMPT_LIMIT) :
    (compared sha calls mxid pool.trace).countP (within start) +
      pool.tasks.countP (readingIn mxid start) < ATTEMPT_LIMIT := by
  have failures := counted_or_forgotten kept.counter inside passes
  have undecided := pending_of_in mxid start pool.tasks
  have told := kept.tells mxid start
  omega

theorem Kept.start (kept : Kept sha calls pool) (call : Call) :
    Kept sha calls
      { pool with tasks := pool.tasks ++ [(call, program sha call)] } := by
  refine ⟨kept.counter, ?_, ?_, kept.refuses, kept.forgives⟩
  · intro mxid start
    have before := kept.tells mxid start
    simp only [List.countP_append]
    omega
  · intro mxid start
    have before := kept.room mxid start
    have silent : readingIn mxid start (call, program sha call) = false := by
      cases call <;> rfl
    simp only [List.countP_append, List.countP_singleton, silent,
      Bool.false_eq_true, if_false, Nat.add_zero]
    exact before

/-- A task makes its next request at a phase of its call. -/
structure Acts (sha : Sha256) (calls : ℕ → Option Call) (pool : Calls)
    (task : ℕ) (call : Call) (request : Request)
    (rest : request.Reply → Script Request Request.Reply Answer)
    (phase : Phase) : Prop where
  found : pool.tasks[task]? = some (call, .call request rest)
  agrees : calls task = some call
  here : phase.Of call
  allowed : phase.allows request
  goes : ∀ answer, (rest answer).Obeys (attemptProtocol sha)
    (Phase.next sha phase request answer) Phase.ends

/-- A call has still to compare only where it reads the codes. -/
theorem reading_of_phase {call : Call} {phase : Phase}
    {script : Script Request Request.Reply Answer}
    (obeys : script.Obeys (attemptProtocol sha) phase Phase.ends)
    {mxid : String} {start : Instant}
    (reads : readingIn mxid start (call, script) = true) :
    ∃ consumer, phase = .reading consumer := by
  cases script with
  | done answer => cases call <;> cases reads
  | call request rest =>
      cases request with
      | statement statement =>
          cases statement with
          | codes =>
              rcases allowed_cases sha obeys.1 with
                ⟨_, _, is⟩ | ⟨consumer, rfl, _⟩ | ⟨_, _, is⟩ | ⟨_, _, is⟩ |
                ⟨_, plain, _⟩
              · cases is
              · exact ⟨consumer, rfl⟩
              · cases is
              · cases is
              · exact absurd rfl plain
          | _ => cases call <;> cases reads
      | _ => cases call <;> cases reads

theorem not_reading {call : Call} {phase : Phase}
    {script : Script Request Request.Reply Answer}
    (obeys : script.Obeys (attemptProtocol sha) phase Phase.ends)
    (apart : ∀ consumer, phase ≠ .reading consumer)
    (mxid : String) (start : Instant) :
    readingIn mxid start (call, script) = false := by
  rw [Bool.eq_false_iff]
  intro reads
  obtain ⟨consumer, is⟩ := reading_of_phase obeys reads
  exact apart consumer is

theorem compared_quiet {passage : Passage} {mxid : String}
    (kept : passage.resets mxid = false)
    (silent : passage.compares sha calls mxid = none) (trace : Trace) :
    compared sha calls mxid (passage :: trace) =
      compared sha calls mxid trace := by
  rw [compared_cons, kept, silent]
  rfl

theorem compared_reset {passage : Passage} {mxid : String}
    (resets : passage.resets mxid = true) (trace : Trace) :
    compared sha calls mxid (passage :: trace) = [] := by
  rw [compared_cons, if_pos resets]

theorem recorded_quiet {passage : Passage} {mxid : String}
    (kept : passage.resets mxid = false)
    (silent : passage.records mxid = none) (trace : Trace) :
    recorded mxid (passage :: trace) = recorded mxid trace := by
  rw [recorded_cons, kept, silent]
  rfl

/-- A wrong code that is compared. -/
theorem compared_reading {task : ℕ} {s : Directory} {rows : List LinkCode}
    {consumer : Consumer} (agrees : calls task = some consumer.call)
    (mxid : String) (start : Instant) (trace : Trace) :
    (compared sha calls mxid
      (⟨task, s, .statement .codes, .ok rows⟩ :: trace)).countP (within start) =
      (wrong sha rows consumer.code consumer.now &&
        (decide (consumer.mxid = mxid) && within start consumer.now)).toNat +
      (compared sha calls mxid trace).countP (within start) := by
  have compares : Passage.compares sha calls mxid
      ⟨task, s, .statement .codes, .ok rows⟩ =
        if consumer.mxid = mxid ∧
            wrong sha rows consumer.code consumer.now = true then
          some consumer.now
        else none := by
    unfold Passage.compares
    dsimp only
    rw [agrees]
    rfl
  rw [compared_cons, compares]
  have kept : Passage.resets mxid ⟨task, s, .statement .codes, .ok rows⟩ =
      false := rfl
  rw [kept]
  by_cases mine : consumer.mxid = mxid
  · cases wrong sha rows consumer.code consumer.now with
    | false => simp [mine]
    | true =>
        cases inside : within start consumer.now <;>
          simp [mine, inside, Nat.add_comm]
  · simp [mine]

theorem recorded_failure {task : ℕ} {s : Directory} {consumer : Consumer}
    (mxid : String) (start : Instant) (trace : Trace) :
    (recorded mxid
      (⟨task, s, .recordFailure consumer.mxid consumer.now, ()⟩ ::
        trace)).countP (within start) =
      (decide (consumer.mxid = mxid) && within start consumer.now).toNat +
        (recorded mxid trace).countP (within start) := by
  rw [recorded_cons]
  have kept : Passage.resets mxid
      ⟨task, s, .recordFailure consumer.mxid consumer.now, ()⟩ = false := rfl
  have records : Passage.records mxid
      ⟨task, s, .recordFailure consumer.mxid consumer.now, ()⟩ =
        if consumer.mxid = mxid then some consumer.now else none := rfl
  rw [kept, records]
  by_cases mine : consumer.mxid = mxid
  · cases inside : within start consumer.now <;>
      simp [mine, inside, Nat.add_comm]
  · simp [mine]

section Step

variable {task : ℕ} {call : Call} {request : Request}
  {rest : request.Reply → Script Request Request.Reply Answer} {phase : Phase}

theorem quiet_other {passage : Passage} (plain : Phase.other passage.request)
    (mxid : String) :
    passage.resets mxid = false ∧ passage.records mxid = none ∧
      passage.compares sha calls mxid = none := by
  obtain ⟨task, s, request, answer⟩ := passage
  cases request with
  | statement statement =>
      cases statement with
      | codes => exact absurd rfl plain
      | _ => exact ⟨rfl, rfl, rfl⟩
  | random => exact ⟨rfl, rfl, rfl⟩
  | _ => exact plain.elim

/-- The wrong codes that were compared are counted, or about to be. -/
theorem Kept.tells_step (kept : Kept sha calls pool)
    (acts : Acts sha calls pool task call request rest phase)
    (answer : request.Reply) (mxid : String) (start : Instant) :
    (compared sha calls mxid
      (⟨task, pool.shared, request, answer⟩ :: pool.trace)).countP
        (within start) ≤
      (recorded mxid
        (⟨task, pool.shared, request, answer⟩ :: pool.trace)).countP
          (within start) +
        (pool.tasks.set task (call, rest answer)).countP
          (recordingIn mxid start) := by
  have before := kept.tells mxid start
  have set := countP_set_add (recordingIn mxid start) acts.found
    (call, rest answer)
  obtain ⟨found, agrees, here, allowed, goes⟩ := acts
  rcases allowed_cases sha allowed with
    ⟨consumer, rfl, rfl⟩ | ⟨consumer, rfl, rfl⟩ | ⟨consumer, is, rfl⟩ |
    ⟨consumer, rfl, rfl⟩ | ⟨is, plain, stays⟩
  · obtain rfl : call = consumer.call := here
    have old : recordingIn mxid start (consumer.call,
        .call (.rateLimited consumer.mxid consumer.now) rest) = false := rfl
    rw [old, Bool.toNat_false] at set
    rw [compared_quiet rfl rfl, recorded_quiet rfl rfl]
    omega
  · obtain rfl : call = consumer.call := here
    have old : recordingIn mxid start (consumer.call,
        .call (.statement .codes) rest) = false := rfl
    rw [old, Bool.toNat_false] at set
    rw [recorded_quiet rfl rfl]
    cases answer with
    | error text =>
        rw [compared_quiet rfl rfl]
        omega
    | ok rows =>
        rw [compared_reading agrees]
        have after := goes (.ok rows)
        cases mistaken : wrong sha rows consumer.code consumer.now with
        | false =>
            rw [Bool.false_and, Bool.toNat_false]
            omega
        | true =>
            have leads : Phase.next sha (.reading consumer) (.statement .codes)
                (.ok rows) = .recording consumer := if_pos mistaken
            rw [leads] at after
            have new :
                recordingIn mxid start (consumer.call, rest (.ok rows)) =
                  (decide (consumer.mxid = mxid) &&
                    within start consumer.now) := by
              cases told : rest (.ok rows) with
              | done answer =>
                  rw [told] at after
                  exact after.elim
              | call request more =>
                  rw [told] at after
                  have asks := after.1
                  cases request with
                  | recordFailure other now => rfl
                  | _ => exact asks.elim
            rw [new] at set
            rw [Bool.true_and]
            omega
  · have same : call = consumer.call := by
      rcases is with rfl | rfl
      · exact here
      · exact here
    subst same
    have old : recordingIn mxid start (consumer.call,
        .call (.recordFailure consumer.mxid consumer.now) rest) =
          (decide (consumer.mxid = mxid) && within start consumer.now) := rfl
    rw [old] at set
    rw [compared_quiet rfl rfl, recorded_failure]
    omega
  · obtain rfl : call = consumer.call := here
    have resets : Passage.resets mxid
        ⟨task, pool.shared, .clearAttempts consumer.mxid, answer⟩ =
          decide (consumer.mxid = mxid) := rfl
    by_cases mine : consumer.mxid = mxid
    · rw [compared_reset (resets.trans (decide_eq_true mine))]
      exact Nat.zero_le _
    · have old : recordingIn mxid start (consumer.call,
          .call (.clearAttempts consumer.mxid) rest) = false := rfl
      rw [old, Bool.toNat_false] at set
      rw [compared_quiet (resets.trans (decide_eq_false mine)) rfl,
        recorded_quiet (resets.trans (decide_eq_false mine)) rfl]
      omega
  · have quiet : ∀ s : Directory,
        Passage.resets mxid ⟨task, s, request, answer⟩ = false ∧
        Passage.records mxid ⟨task, s, request, answer⟩ = none ∧
        Passage.compares sha calls mxid ⟨task, s, request, answer⟩ = none :=
      fun s => quiet_other plain mxid
    obtain ⟨resets, records, compares⟩ := quiet pool.shared
    have old : recordingIn mxid start (call, .call request rest) = false := by
      cases request with
      | recordFailure other now => exact plain.elim
      | statement statement => cases call <;> rfl
      | _ => cases call <;> rfl
    rw [old, Bool.toNat_false] at set
    rw [compared_quiet resets compares, recorded_quiet resets records]
    omega

/-- Fewer wrong codes are compared, or about to be, than there may be. -/
theorem Kept.room_step (kept : Kept sha calls pool)
    (acts : Acts sha calls pool task call request rest phase)
    (answer : request.Reply)
    (spare : ∀ consumer : Consumer, call = consumer.call →
      (⟨task, pool.shared, request, answer⟩ : Passage) =
        ⟨task, pool.shared, .rateLimited consumer.mxid consumer.now, false⟩ →
      ∀ start, within start consumer.now = true →
      (compared sha calls consumer.mxid pool.trace).countP (within start) +
        pool.tasks.countP (readingIn consumer.mxid start) < ATTEMPT_LIMIT)
    (mxid : String) (start : Instant) :
    (compared sha calls mxid
      (⟨task, pool.shared, request, answer⟩ :: pool.trace)).countP
        (within start) +
      (pool.tasks.set task (call, rest answer)).countP
        (readingIn mxid start) ≤ ATTEMPT_LIMIT := by
  have before := kept.room mxid start
  have set := countP_set_add (readingIn mxid start) acts.found
    (call, rest answer)
  obtain ⟨found, agrees, here, allowed, goes⟩ := acts
  have after := goes answer
  rcases allowed_cases sha allowed with
    ⟨consumer, rfl, rfl⟩ | ⟨consumer, rfl, rfl⟩ | ⟨consumer, is, rfl⟩ |
    ⟨consumer, rfl, rfl⟩ | ⟨is, plain, stays⟩
  · obtain rfl : call = consumer.call := here
    rw [compared_quiet rfl rfl]
    cases answer with
    | true =>
        rw [not_reading after (fun _ same => nomatch same),
          Bool.toNat_false] at set
        omega
    | false =>
        have new : readingIn mxid start (consumer.call, rest false) =
            (decide (consumer.mxid = mxid) && within start consumer.now) := by
          cases told : rest false with
          | done answer =>
              rw [told] at after
              exact after.elim
          | call request more =>
              rw [told] at after
              have asks := after.1
              cases request with
              | statement statement =>
                  cases statement with
                  | codes => rfl
                  | _ => exact asks.elim
              | _ => exact asks.elim
        rw [new] at set
        by_cases mine : consumer.mxid = mxid
        · subst mine
          cases inside : within start consumer.now with
          | false =>
              rw [inside, Bool.and_false, Bool.toNat_false] at set
              omega
          | true =>
              have less := spare consumer rfl rfl start inside
              rw [inside, Bool.and_true, decide_eq_true rfl, Bool.toNat_true]
                at set
              omega
        · rw [decide_eq_false mine, Bool.false_and, Bool.toNat_false] at set
          omega
  · obtain rfl : call = consumer.call := here
    have old : readingIn mxid start (consumer.call,
        .call (.statement .codes) rest) =
          (decide (consumer.mxid = mxid) && within start consumer.now) := rfl
    cases answer with
    | error text =>
        rw [not_reading after (fun _ same => nomatch same),
          Bool.toNat_false] at set
        rw [compared_quiet rfl rfl]
        omega
    | ok rows =>
        have leads : Phase.next sha (.reading consumer) (.statement .codes)
            (.ok rows) =
              if wrong sha rows consumer.code consumer.now = true then
                .recording consumer
              else .consuming consumer := rfl
        have apart : ∀ other, Phase.next sha (.reading consumer)
            (.statement .codes) (.ok rows) ≠ .reading other := by
          intro other
          rw [leads]
          split <;> exact fun same => nomatch same
        rw [not_reading after apart, old, Bool.toNat_false] at set
        rw [compared_reading agrees]
        cases wrong sha rows consumer.code consumer.now with
        | false =>
            rw [Bool.false_and, Bool.toNat_false]
            omega
        | true =>
            rw [Bool.true_and]
            omega
  · have apart : ∀ other, Phase.next sha phase
        (.recordFailure consumer.mxid consumer.now) answer ≠
          .reading other := by
      rcases is with rfl | rfl
      · exact fun other same => nomatch same
      · exact fun other same => nomatch same
    rw [not_reading after apart, Bool.toNat_false] at set
    rw [compared_quiet rfl rfl]
    omega
  · rw [not_reading after (fun _ same => nomatch same),
      Bool.toNat_false] at set
    have resets : Passage.resets mxid
        ⟨task, pool.shared, .clearAttempts consumer.mxid, answer⟩ =
          decide (consumer.mxid = mxid) := rfl
    by_cases mine : consumer.mxid = mxid
    · rw [compared_reset (resets.trans (decide_eq_true mine)),
        List.countP_nil]
      omega
    · rw [compared_quiet (resets.trans (decide_eq_false mine)) rfl]
      omega
  · have quiet : ∀ s : Directory,
        Passage.resets mxid ⟨task, s, request, answer⟩ = false ∧
        Passage.records mxid ⟨task, s, request, answer⟩ = none ∧
        Passage.compares sha calls mxid ⟨task, s, request, answer⟩ = none :=
      fun s => quiet_other plain mxid
    obtain ⟨resets, records, compares⟩ := quiet pool.shared
    rw [stays] at after
    have apart : ∀ other, phase ≠ .reading other := by
      rcases is with ⟨consumer, rfl⟩ | rfl
      · exact fun other same => nomatch same
      · exact fun other same => nomatch same
    rw [not_reading after apart, Bool.toNat_false] at set
    rw [compared_quiet resets compares]
    omega

/-- Each request of a call that leaves room keeps the limit. -/
theorem Kept.step (kept : Kept sha calls pool)
    (acts : Acts sha calls pool task call request rest phase)
    (roomy : Roomy pool task) (conditions : Conditions) :
    Kept sha calls
      { shared := (exec conditions pool.shared request).2
        tasks := pool.tasks.set task
          (call, rest (exec conditions pool.shared request).1)
        trace := ⟨task, pool.shared, request,
          (exec conditions pool.shared request).1⟩ :: pool.trace } := by
  have spare : ∀ consumer : Consumer, call = consumer.call →
      request = .rateLimited consumer.mxid consumer.now →
      pool.shared.rateLimited consumer.mxid consumer.now = false →
      ∀ start, within start consumer.now = true →
      (compared sha calls consumer.mxid pool.trace).countP (within start) +
        pool.tasks.countP (readingIn consumer.mxid start) < ATTEMPT_LIMIT := by
    intro consumer is asks passes start inside
    subst is asks
    have checks : checking pool task = some (consumer.mxid, consumer.now) := by
      unfold checking
      rw [acts.found]
      rfl
    exact kept.spare inside passes (roomy _ checks passes)
  refine ⟨kept.counter.keeps task conditions request, ?_, ?_, ?_, ?_⟩
  · exact kept.tells_step acts _
  · apply kept.room_step acts
    intro consumer is same start inside
    obtain ⟨asks, passes⟩ : request =
        .rateLimited consumer.mxid consumer.now ∧
          HEq (exec conditions pool.shared request).1 false := by
      injection same with _ _ asks told
      exact ⟨asks, told⟩
    subst asks
    exact spare consumer is rfl (eq_of_heq passes) start inside
  · refine ⟨?_, kept.refuses⟩
    obtain ⟨found, agrees, here, allowed, goes⟩ := acts
    cases request with
    | rateLimited mxid now =>
        intro start inside many
        rcases allowed_cases sha allowed with
          ⟨consumer, rfl, is⟩ | ⟨_, _, is⟩ | ⟨_, _, is⟩ | ⟨_, _, is⟩ |
          ⟨_, plain, _⟩
        · cases is
          by_contra passes
          have less := spare consumer here rfl (Bool.eq_false_iff.mpr passes)
            start inside
          omega
        · cases is
        · cases is
        · cases is
        · exact plain.elim
    | _ => trivial
  · refine ⟨?_, kept.forgives⟩
    cases request with
    | rateLimited mxid now =>
        intro limited
        have told := kept.counter mxid
        change pool.shared.rateLimited mxid now = true at limited
        unfold Directory.rateLimited at limited
        cases entry : pool.shared.attempts.lookup mxid with
        | none =>
            rw [entry] at limited
            cases limited
        | some entry' =>
            rw [entry] at limited told
            rw [Bool.and_eq_true, decide_eq_true_eq, decide_eq_true_eq]
              at limited
            exact limited.2.trans told.1
    | _ => trivial

end Step

section Run

variable {s : Directory}

theorem phase_of_task (sha : Sha256) {moves : List (Move Call Conditions)}
    {task : ℕ} {call : Call} {script : Script Request Request.Reply Answer}
    (found : ((system sha).run s moves).tasks[task]? = some (call, script)) :
    ∃ phase, Phase.Tells call phase (((system sha).run s moves).turns task) ∧
      script.Obeys (attemptProtocol sha) phase Phase.ends :=
  System.told (attemptProtocol sha) Phase.Tells (attempts_obey sha) tells_start
    tells_adds found

theorem RoomyRun.earlier {moves earlier : List (Move Call Conditions)}
    (roomy : RoomyRun sha s moves) (begins : earlier <+: moves) :
    RoomyRun sha s earlier :=
  fun before task conditions starts =>
    roomy before task conditions (starts.trans begins)

theorem kept_of_run (unattempted : s.attempts = ∅)
    (moves : List (Move Call Conditions)) (roomy : RoomyRun sha s moves)
    {calls : ℕ → Option Call}
    (agrees : Agrees calls ((system sha).run s moves)) :
    Kept sha calls ((system sha).run s moves) := by
  induction moves using List.reverseRecOn with
  | nil =>
      refine ⟨?_, ?_, ?_, trivial, trivial⟩
      · intro mxid
        change Counts [] (s.attempts.lookup mxid)
        rw [unattempted, AList.lookup_empty]
        rfl
      · intro mxid start
        exact Nat.zero_le _
      · intro mxid start
        exact Nat.zero_le _
  | append_singleton moves move induction =>
      have before := roomy.earlier (List.prefix_append moves [move])
      have last : (system sha).run s (moves ++ [move]) =
          (system sha).next ((system sha).run s moves) move :=
        System.run_append moves [move]
      rw [last] at agrees ⊢
      rcases (system sha).next_cases ((system sha).run s moves) move with
        ⟨call, _, same⟩ |
        ⟨task, conditions, call, request, rest, is, found, ready, same⟩ | same
      · rw [same] at agrees ⊢
        have kept := induction before fun found =>
          agrees (List.getElem?_append_left
            (List.getElem?_eq_some_iff.mp found).1 ▸ found)
        exact kept.start call
      · rw [same] at agrees ⊢
        have inside := (List.getElem?_eq_some_iff.mp found).1
        change Agrees calls ⟨_, _ ++ [], _⟩ at agrees
        change Kept sha calls ⟨_, _ ++ [], _⟩
        rw [List.append_nil] at agrees ⊢
        have known : Agrees calls ((system sha).run s moves) := by
          intro other entry told
          by_cases mine : task = other
          · subst mine
            obtain rfl := Option.some.inj (found.symm.trans told)
            have set := agrees (List.getElem?_set_self inside)
            exact set
          · apply agrees
            dsimp only
            rw [List.getElem?_set_ne mine]
            exact told
        obtain ⟨phase, tells, obeys⟩ := phase_of_task sha found
        apply (induction before known).step
          ⟨found, known found, tells.1, obeys.1, obeys.2⟩
        exact roomy moves task conditions (is ▸ List.prefix_refl _)
      · rw [same] at agrees ⊢
        exact induction before agrees

theorem agrees_callOf (pool : Calls) : Agrees (callOf pool) pool := by
  intro task entry found
  unfold callOf
  rw [found]
  rfl

/-- A call that was turned away has made no other request. -/
theorem over_of_turnsAway {moves : List (Move Call Conditions)} {task : ℕ}
    {call : Call} {script : Script Request Request.Reply Answer}
    (found : ((system sha).run s moves).tasks[task]? = some (call, script))
    {passage : Passage} (member : passage ∈ ((system sha).run s moves).trace)
    (mine : passage.task = task) (away : passage.turnsAway = true) :
    script = .done (.consumed (.error (.forbidden "too many attempts"))) ∧
      ∀ other ∈ ((system sha).run s moves).trace, other.task = task →
        other = passage := by
  obtain ⟨phase, tells, obeys⟩ := phase_of_task sha found
  have turn : passage ∈ ((system sha).run s moves).turns task :=
    Pool.mem_turns.mpr ⟨member, mine⟩
  obtain ⟨_, told⟩ := tells
  have elsewhere : (∀ turn ∈ ((system sha).run s moves).turns task,
      Passage.turnsAway turn = false) → False := by
    intro silent
    exact absurd (silent passage turn) (by rw [away]; exact Bool.noConfusion)
  cases phase with
  | refused consumer =>
      obtain ⟨only, same⟩ := told
      constructor
      · cases script with
        | done answer => exact congrArg Script.done obeys
        | call request rest => exact obeys.1.elim
      · intro other there theirs
        have another : other ∈ ((system sha).run s moves).turns task :=
          Pool.mem_turns.mpr ⟨there, theirs⟩
        rw [same] at turn another
        rw [List.mem_singleton.mp turn, List.mem_singleton.mp another]
  | checking consumer =>
      have empty : ((system sha).run s moves).turns task = [] := told
      rw [empty] at turn
      cases turn
  | reading consumer => exact (elsewhere told).elim
  | recording consumer => exact (elsewhere told).elim
  | consuming consumer => exact (elsewhere told).elim
  | finished => exact (elsewhere told).elim
  | aside => exact (elsewhere told).elim

/-- In every run of calls on link codes, whatever their order and that of their
statements, in which each call that is let through leaves room for the failures
that the counter does not show, no ten minutes see more wrong codes of a Matrix
identifier since its latest success than there may be, and what it presents
further in them is refused unseen. -/
theorem limited_of_roomy (sha : Sha256) (s : Directory)
    (unattempted : s.attempts = ∅) (moves : List (Move Call Conditions))
    (roomy : RoomyRun sha s moves) :
    ∀ reached, reached <+: moves →
      Limited sha ((system sha).run s reached) := by
  intro reached begins
  have kept := kept_of_run unattempted reached (roomy.earlier begins)
    (agrees_callOf ((system sha).run s reached))
  refine ⟨?_, ?_, ?_⟩
  · intro mxid start
    have room := kept.room mxid start
    omega
  · intro task mxid code now script later earlier passage start found split
      mine asks inside many
    have member : passage ∈ ((system sha).run s reached).trace := by
      rw [split]
      exact List.mem_append_right later List.mem_cons_self
    apply over_of_turnsAway found member mine
    have refuses := (split ▸ kept.refuses).at
    obtain ⟨task, before, request, answer⟩ := passage
    dsimp only at asks
    subst asks
    exact refuses start inside many
  · intro later earlier task before mxid now split
    have forgives := (split ▸ kept.forgives).at
    exact forgives rfl

end Run

/-- With no call of the identifier in progress and no failure forgotten, there
is room. -/
theorem roomy_of_settled {task : ℕ}
    (settled : ∀ check ∈ checking pool task,
      pool.tasks.countP (pending check.1) = 0 ∧
        (recorded check.1 pool.trace).countP
          (pool.shared.forgets check.1 check.2) = 0) :
    Roomy pool task := by
  intro check asked passes
  obtain ⟨alone, remembered⟩ := settled check asked
  rw [alone, remembered]
  unfold Directory.rateLimited at passes
  unfold Directory.counted
  cases entry : pool.shared.attempts.lookup check.1 with
  | none => exact Nat.zero_lt_succ 4
  | some entry' =>
      rw [entry] at passes
      dsimp only at passes ⊢
      split
      next fresh =>
        rw [decide_eq_true fresh, Bool.true_and, decide_eq_false_iff_not]
          at passes
        omega
      next => exact Nat.zero_lt_succ 4

/-- A wrong code is presented: the check, the comparison, the failure. -/
def presenting (task : ℕ) (now : Instant) : List (Move Call Conditions) :=
  [.start (.consume "@eve:srv" "AAAAAAAAAAAA" now), .step task {},
    .step task {}, .step task {}]

def second : ℤ := nanosPerSecond

/-- Five wrong codes, then a sixth. -/
def guessing : List (Move Call Conditions) :=
  ((List.range 5).flatMap fun task => presenting task (task * second)) ++
    presenting 5 (5 * second)

theorem limited_guessing :
    Limited knownSha ((system knownSha).run Directory.empty guessing) ∧
      Returns ((system knownSha).run Directory.empty guessing) 5
        (.consume "@eve:srv" "AAAAAAAAAAAA" (5 * second))
        (.consumed (.error (.forbidden "too many attempts"))) := by
  constructor
  · exact limited_of_roomy knownSha Directory.empty rfl guessing
      (by decide +kernel) guessing (List.prefix_refl _)
  · rfl

/-- The instant of a call that presents a code. -/
def presentedAt : Move Call Conditions → Option Instant
  | .start (.consume _ _ now) => some now
  | _ => none

/-- The codes are presented at instants that do not go back. -/
def Ordered (moves : List (Move Call Conditions)) : Prop :=
  (moves.filterMap presentedAt).Pairwise (· ≤ ·)

instance (moves : List (Move Call Conditions)) : Decidable (Ordered moves) :=
  inferInstanceAs (Decidable (List.Pairwise _ _))

/-- One wrong code opens the window, four come at its end, and five as soon as
it is closed. -/
def straddling : List (Move Call Conditions) :=
  presenting 0 0 ++
    ((List.range 4).flatMap fun task => presenting (1 + task) (599 * second)) ++
    (List.range 5).flatMap fun task => presenting (5 + task) (600 * second)

/-- Six calls make their checks before any compares its code. -/
def crowding : List (Move Call Conditions) :=
  List.replicate 6 (.start (.consume "@eve:srv" "AAAAAAAAAAAA" 0)) ++
    (List.range 6).map (fun task => .step task {}) ++
    (List.range 6).flatMap fun task => [.step task {}, .step task {}]

/-- Nine wrong codes are compared in less than two seconds, one call after the
other; or six at once. -/
theorem limit_exceeded :
    (Ordered straddling ∧
      ¬Limited knownSha ((system knownSha).run Directory.empty straddling)) ∧
    (Ordered crowding ∧
      ¬Limited knownSha ((system knownSha).run Directory.empty crowding)) := by
  refine ⟨⟨by decide +kernel, ?_⟩, ⟨by decide +kernel, ?_⟩⟩
  · intro limited
    have bounded := limited.bounded "@eve:srv" (599 * second)
    exact absurd bounded (by decide +kernel)
  · intro limited
    have bounded := limited.bounded "@eve:srv" 0
    exact absurd bounded (by decide +kernel)

end MiryadCore.Chat
