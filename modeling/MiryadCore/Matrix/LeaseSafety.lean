import MiryadCore.Matrix.Leases

/-!
# Who holds a lease

A lease that was taken is kept until it expires, unless its holder shortens
it, and its generation tells its holders apart.
-/

namespace MiryadCore.Matrix

section Course

variable {take : Take} {turns : List Turn} {left : Code}

/-- A call that has come to its update, after readings and an insertion that
did nothing. -/
def Deciding (now latest : ℕ) (turns : List Turn) : Prop :=
  ∃ task before refused other there,
    turns = [⟨task, before, .nowMs, now⟩, refused,
      ⟨other, there, .nowMs, latest⟩] ∧ grant refused = none

/-- How far a call has gone. -/
theorem course (follows : (tryTakeLeasedLock take).Follows turns left) :
    (∃ request rest, left = .call request rest ∧
      ∀ key holder expiration now,
        request ≠ .update key holder expiration now) ∨
    (∃ error, left = .done (.error error)) ∨
    (∃ task before now turn,
      turns = [⟨task, before, .nowMs, now⟩, turn] ∧
        grant turn = some ⟨take.lease, take.holder, take.expiration now, 1⟩ ∧
        left = .done (.ok (some 1))) ∨
    ∃ now latest early, Deciding now latest early ∧
      ((∃ rest, turns = early ∧ left = .call (.update take.lease take.holder
          (take.expiration now) latest) rest) ∨
        ∃ task before answer,
          turns = early ++ [⟨task, before, .update take.lease take.holder
            (take.expiration now) latest, .ok answer⟩] ∧
          left = .done (match answer with
            | none => .ok none
            | some generation => generationOf generation)) := by
  rcases follows.of_call with start | first
  · exact Or.inl ⟨_, _, start.2, by simp⟩
  obtain ⟨task, before, now, _, rfl, read⟩ := first
  rcases read.of_call with start | second
  · exact Or.inl ⟨_, _, start.2, by simp⟩
  obtain ⟨placer, found, inserted, _, rfl, placed⟩ := second
  cases inserted with
  | error error => exact Or.inr (Or.inl ⟨_, placed.of_done.2⟩)
  | ok affected =>
      dsimp only at placed
      split at placed
      next one =>
        obtain ⟨rfl, same⟩ := placed.of_done
        refine Or.inr (Or.inr (Or.inl ⟨task, before, now, _, rfl, ?_, same⟩))
        rw [grant_insert, if_pos one]
      next notOne =>
        rcases placed.of_call with start | third
        · exact Or.inl ⟨_, _, start.2, by simp⟩
        obtain ⟨other, there, latest, _, rfl, reread⟩ := third
        have deciding : Deciding now latest [⟨task, before, .nowMs, now⟩,
            ⟨placer, found, .insert take.lease take.holder
              (take.expiration now), .ok affected⟩, ⟨other, there, .nowMs, latest⟩] :=
          ⟨_, _, _, _, _, rfl, by rw [grant_insert, if_neg notOne]⟩
        rcases reread.of_call with here | fourth
        · obtain ⟨rfl, same⟩ := here
          exact Or.inr (Or.inr (Or.inr
            ⟨now, latest, _, deciding, Or.inl ⟨_, rfl, same⟩⟩))
        · obtain ⟨last, reached, updated, _, rfl, decided⟩ := fourth
          cases updated with
          | error error => exact Or.inr (Or.inl ⟨_, decided.of_done.2⟩)
          | ok answer =>
              refine Or.inr (Or.inr (Or.inr
                ⟨now, latest, _, deciding,
                  Or.inr ⟨last, reached, answer, ?_, ?_⟩⟩))
              · cases answer with
                | none => rw [decided.of_done.1]; rfl
                | some generation => rw [decided.of_done.1]; rfl
              · cases answer with
                | none => exact decided.of_done.2
                | some generation => exact decided.of_done.2

theorem reading_of_update {key : LeaseKey} {holder : String}
    {expiration now : ℕ}
    {rest : Except Users.DbErr (Option ℤ) → Code}
    (follows : (tryTakeLeasedLock take).Follows turns
      (.call (.update key holder expiration now) rest)) :
    ∃ task before, (⟨task, before, .nowMs, now⟩ : Turn) ∈ turns := by
  rcases course follows with early | failed | obtained | decided
  · obtain ⟨request, _, same, other⟩ := early
    cases same
    exact (other _ _ _ _ rfl).elim
  · obtain ⟨_, impossible⟩ := failed
    cases impossible
  · obtain ⟨_, _, _, _, _, _, impossible⟩ := obtained
    cases impossible
  · obtain ⟨_, latest, _, deciding, here | ended⟩ := decided
    · obtain ⟨_, rfl, same⟩ := here
      cases same
      obtain ⟨_, _, _, task, before, rfl, _⟩ := deciding
      exact ⟨task, before, by simp⟩
    · obtain ⟨_, _, _, _, impossible⟩ := ended
      cases impossible

theorem of_generationOf {generation : ℤ} {value : Option ℕ}
    (converted : generationOf generation = .ok value) :
    ∃ number : ℕ, value = some number ∧ generation = number := by
  unfold generationOf at converted
  split at converted
  next => cases converted
  next positive =>
    obtain rfl := Except.ok.inj converted
    exact ⟨generation.toNat, rfl, by omega⟩

/-- A call that has obtained the lease took it at its last turn, to expire
after its first reading. -/
theorem turns_of_some {generation : ℕ}
    (follows : (tryTakeLeasedLock take).Follows turns
      (.done (.ok (some generation)))) :
    ∃ task before now turn, turns.head? = some ⟨task, before, .nowMs, now⟩ ∧
      turns.getLast? = some turn ∧
      grant turn = some
        ⟨take.lease, take.holder, take.expiration now, generation⟩ := by
  rcases course follows with early | failed | obtained | decided
  · obtain ⟨_, _, impossible, _⟩ := early
    cases impossible
  · obtain ⟨_, impossible⟩ := failed
    cases impossible
  · obtain ⟨task, before, now, turn, rfl, took, same⟩ := obtained
    cases same
    exact ⟨task, before, now, turn, rfl, rfl, took⟩
  · obtain ⟨now, _, _, deciding, here | ended⟩ := decided
    · obtain ⟨_, _, impossible⟩ := here
      cases impossible
    · obtain ⟨_, _, answer, rfl, same⟩ := ended
      obtain ⟨task, before, _, _, _, rfl, _⟩ := deciding
      cases answer with
      | none => cases same
      | some taken =>
          obtain ⟨number, is, cast⟩ :=
            of_generationOf (Script.done.inj same).symm
          obtain rfl := Option.some.inj is
          exact ⟨task, before, now, _, rfl, rfl, by rw [cast]; rfl⟩

theorem turns_of_none
    (follows : (tryTakeLeasedLock take).Follows turns (.done (.ok none))) :
    ∀ turn ∈ turns, grant turn = none := by
  rcases course follows with early | failed | obtained | decided
  · obtain ⟨_, _, impossible, _⟩ := early
    cases impossible
  · obtain ⟨_, impossible⟩ := failed
    cases impossible
  · obtain ⟨_, _, _, _, _, _, impossible⟩ := obtained
    cases impossible
  · obtain ⟨_, _, _, deciding, here | ended⟩ := decided
    · obtain ⟨_, _, impossible⟩ := here
      cases impossible
    · obtain ⟨_, _, answer, rfl, same⟩ := ended
      obtain ⟨_, _, refused, _, _, rfl, nothing⟩ := deciding
      cases answer with
      | none => simp [nothing, grant_nowMs]
      | some taken =>
          obtain ⟨_, impossible, _⟩ :=
            of_generationOf (Script.done.inj same).symm
          cases impossible

end Course

/-- A holder takes its lease again, to expire earlier. -/
def Shortened (taken : Grant) (later : List Turn) : Prop :=
  ∃ turn ∈ later, ∃ again, grant turn = some again ∧
    again.lease = taken.lease ∧ again.holder = taken.holder ∧
    again.expiration < taken.expiration

/-- What was taken is kept, has expired or was shortened. -/
def Kept (leases : Leases) (later : List Turn) (taken : Grant) : Prop :=
  (∃ row, leases.rows.lookup taken.lease = some row ∧
    row.holder = taken.holder ∧ taken.expiration ≤ row.expirationMs) ∨
  taken.expiration ≤ leases.clock ∨ Shortened taken later

/-- The row is at the generation that was taken, or past it. -/
def Numbered (leases : Leases) (taken : Grant) : Prop :=
  ∃ row, leases.rows.lookup taken.lease = some row ∧
    (taken.generation < row.generation ∨
      taken.generation = row.generation ∧ taken.holder = row.holder)

/-- A turn takes no lease that another holder still has. -/
def Excludes (before : List Turn) (turn : Turn) : Prop :=
  ∀ mine, grant turn = some mine → ∀ later past earlier,
    before = later ++ past :: earlier → ∀ theirs, grant past = some theirs →
    theirs.lease = mine.lease → theirs.holder ≠ mine.holder →
    theirs.expiration ≤ turn.before.clock ∨ Shortened theirs later

structure Good (leases : Leases) (trace : List Turn) : Prop where
  readings : ∀ task before now,
    (⟨task, before, .nowMs, now⟩ : Turn) ∈ trace → now ≤ leases.clock
  kept : ∀ later past earlier, trace = later ++ past :: earlier →
    ∀ taken, grant past = some taken → Kept leases later taken
  numbered : ∀ past ∈ trace, ∀ taken, grant past = some taken →
    Numbered leases taken
  fenced : ∀ past ∈ trace, ∀ other ∈ trace, ∀ taken again,
    grant past = some taken → grant other = some again →
    taken.lease = again.lease → taken.generation = again.generation →
    taken.holder = again.holder
  excludes : Throughout Excludes trace

section Keeps

variable {leases : Leases} {trace : List Turn} {request : Request}

theorem Kept.step {later : List Turn} {taken : Grant}
    (kept : Kept leases later taken) (task : ℕ) (conditions : Conditions)
    (timely : Timely ⟨task, leases, request,
      (exec conditions leases request).1⟩) :
    Kept (exec conditions leases request).2
      (⟨task, leases, request, (exec conditions leases request).1⟩ :: later)
      taken := by
  have clock := exec_clock leases conditions request
  rcases kept with held | expired | shortened
  · obtain ⟨row, found, mine, lasts⟩ := held
    rcases turn_cases leases conditions task request with
      ⟨_, same⟩ | ⟨again, takes, wrote, allowed⟩
    · exact Or.inl ⟨row, by rw [same]; exact found, mine, lasts⟩
    · by_cases sameLease : again.lease = taken.lease
      · rcases allowed with ⟨missing, _⟩ | ⟨was, now, there, asked, free, _⟩
        · rw [sameLease, found] at missing
          cases missing
        · rw [sameLease, found] at there
          obtain rfl := Option.some.inj there
          by_cases sameHolder : again.holder = taken.holder
          · by_cases earlier : again.expiration < taken.expiration
            · exact Or.inr (Or.inr ⟨_, List.mem_cons_self, again, takes,
                sameLease, sameHolder, earlier⟩)
            · refine Or.inl ⟨⟨again.holder, again.expiration,
                again.generation⟩, ?_, sameHolder, Nat.not_lt.mp earlier⟩
              rw [wrote, ← sameLease, AList.lookup_insert]
          · have due : row.expirationMs ≤ now :=
              free.resolve_left fun same => sameHolder (same.symm.trans mine)
            have read : now ≤ leases.clock := by
              subst asked
              exact timely
            exact Or.inr (Or.inl (by omega))
      · refine Or.inl ⟨row, ?_, mine, lasts⟩
        rw [wrote, AList.lookup_insert_ne (Ne.symm sameLease)]
        exact found
  · exact Or.inr (Or.inl (expired.trans clock))
  · obtain ⟨turn, member, rest⟩ := shortened
    exact Or.inr (Or.inr ⟨turn, List.mem_cons_of_mem _ member, rest⟩)

theorem Numbered.step {taken : Grant} (numbered : Numbered leases taken)
    (task : ℕ) (conditions : Conditions) :
    Numbered (exec conditions leases request).2 taken := by
  obtain ⟨row, found, later⟩ := numbered
  rcases turn_cases leases conditions task request with
    ⟨_, same⟩ | ⟨again, _, wrote, allowed⟩
  · exact ⟨row, by rw [same]; exact found, later⟩
  · by_cases sameLease : again.lease = taken.lease
    · refine ⟨⟨again.holder, again.expiration, again.generation⟩, ?_, ?_⟩
      · rw [wrote, ← sameLease, AList.lookup_insert]
      · rcases allowed with ⟨missing, _⟩ | ⟨was, now, there, _, _, counted⟩
        · rw [sameLease, found] at missing
          cases missing
        · rw [sameLease, found] at there
          obtain rfl := Option.some.inj there
          dsimp only
          rw [counted]
          by_cases sameHolder : row.holder = again.holder
          · rw [if_pos sameHolder, ← sameHolder, Int.add_zero]
            exact later
          · rw [if_neg sameHolder]
            left
            omega
    · refine ⟨row, ?_, later⟩
      rw [wrote, AList.lookup_insert_ne (Ne.symm sameLease)]
      exact found

/-- A generation that was taken before is taken again by its holder only. -/
theorem Numbered.fences {taken mine : Grant} (numbered : Numbered leases taken)
    {task : ℕ} {conditions : Conditions}
    (takes : grant ⟨task, leases, request,
      (exec conditions leases request).1⟩ = some mine)
    (sameLease : taken.lease = mine.lease)
    (sameGeneration : taken.generation = mine.generation) :
    taken.holder = mine.holder := by
  obtain ⟨row, found, order⟩ := numbered
  rcases turn_cases leases conditions task request with
    ⟨nothing, _⟩ | ⟨again, takes', _, allowed⟩
  · rw [takes] at nothing
    cases nothing
  · rw [takes] at takes'
    obtain rfl := Option.some.inj takes'
    rcases allowed with ⟨missing, _⟩ | ⟨was, now, there, _, _, counted⟩
    · rw [← sameLease, found] at missing
      cases missing
    · rw [← sameLease, found] at there
      obtain rfl := Option.some.inj there
      by_cases sameHolder : row.holder = mine.holder
      · rw [if_pos sameHolder] at counted
        rcases order with past | present
        · omega
        · exact present.2.trans sameHolder
      · rw [if_neg sameHolder] at counted
        omega

theorem Good.excludes_step (good : Good leases trace) (task : ℕ)
    (conditions : Conditions)
    (timely : Timely ⟨task, leases, request,
      (exec conditions leases request).1⟩) :
    Excludes trace ⟨task, leases, request,
      (exec conditions leases request).1⟩ := by
  intro mine takes later past earlier split theirs took sameLease different
  rcases turn_cases leases conditions task request with
    ⟨nothing, _⟩ | ⟨again, takes', _, allowed⟩
  · rw [takes] at nothing
    cases nothing
  · rw [takes] at takes'
    obtain rfl := Option.some.inj takes'
    rcases good.kept later past earlier split theirs took with
      held | expired | shortened
    · obtain ⟨row, found, owned, lasts⟩ := held
      rcases allowed with ⟨missing, _⟩ | ⟨was, now, there, asked, free, _⟩
      · rw [← sameLease, found] at missing
        cases missing
      · rw [← sameLease, found] at there
        obtain rfl := Option.some.inj there
        have due : row.expirationMs ≤ now :=
          free.resolve_left fun same => different (owned.symm.trans same)
        have read : now ≤ leases.clock := by
          subst asked
          exact timely
        exact Or.inl (lasts.trans (due.trans read))
    · exact Or.inl expired
    · exact Or.inr shortened

theorem Good.step (good : Good leases trace) (task : ℕ)
    (conditions : Conditions)
    (timely : Timely ⟨task, leases, request,
      (exec conditions leases request).1⟩) :
    Good (exec conditions leases request).2
      (⟨task, leases, request, (exec conditions leases request).1⟩ ::
        trace) := by
  have clock := exec_clock leases conditions request
  refine ⟨?_, ?_, ?_, ?_, good.excludes_step task conditions timely,
    good.excludes⟩
  · intro asker before now member
    rcases List.mem_cons.mp member with latest | earlier
    · cases latest
      exact (Nat.min_le_left _ _).trans clock
    · exact (good.readings asker before now earlier).trans clock
  · intro later past earlier split taken took
    cases later with
    | nil =>
        obtain ⟨rfl, rfl⟩ := List.cons.inj split
        rcases turn_cases leases conditions task request with
          ⟨nothing, _⟩ | ⟨again, takes, wrote, _⟩
        · rw [took] at nothing
          cases nothing
        · rw [took] at takes
          obtain rfl := Option.some.inj takes
          refine Or.inl ⟨⟨taken.holder, taken.expiration, taken.generation⟩,
            ?_, rfl, Nat.le_refl _⟩
          rw [wrote, AList.lookup_insert]
    | cons latest later =>
        obtain ⟨rfl, rfl⟩ := List.cons.inj split
        exact (good.kept later past earlier rfl taken took).step task
          conditions timely
  · intro past member taken took
    rcases List.mem_cons.mp member with latest | earlier
    · subst latest
      rcases turn_cases leases conditions task request with
        ⟨nothing, _⟩ | ⟨again, takes, wrote, _⟩
      · rw [took] at nothing
        cases nothing
      · rw [took] at takes
        obtain rfl := Option.some.inj takes
        refine ⟨⟨taken.holder, taken.expiration, taken.generation⟩, ?_,
          Or.inr ⟨rfl, rfl⟩⟩
        rw [wrote, AList.lookup_insert]
    · exact (good.numbered past earlier taken took).step task conditions
  · intro past member other member' taken again took took' sameLease
      sameGeneration
    rcases List.mem_cons.mp member with latest | earlier
    · subst latest
      rcases List.mem_cons.mp member' with latest' | earlier'
      · subst latest'
        rw [took] at took'
        rw [Option.some.inj took']
      · exact ((good.numbered other earlier' again took').fences took
          sameLease.symm sameGeneration.symm).symm
    · rcases List.mem_cons.mp member' with latest' | earlier'
      · subst latest'
        exact (good.numbered past earlier taken took).fences took' sameLease
          sameGeneration
      · exact good.fenced past earlier other earlier' taken again took took'
          sameLease sameGeneration

end Keeps

/-- The invariant holds in every run, whatever the rows at its start. -/
theorem good_of_run (leases : Leases) (moves : List (Move Take Conditions)) :
    Good (system.run leases moves).shared (system.run leases moves).trace := by
  apply System.holds_of_run Good
  case begins =>
    refine ⟨?_, ?_, ?_, ?_, trivial⟩
    · intro task before now member
      cases member
    · intro later past earlier split
      simp at split
    · intro past member
      cases member
    · intro past member
      cases member
  case keeps =>
    intro moves task conditions take request rest follows good
    apply good.step task conditions
    cases request with
    | nowMs => trivial
    | insert key holder expiration => trivial
    | update key holder expiration now =>
        obtain ⟨asker, before, member⟩ := reading_of_update follows
        exact good.readings asker before now (Pool.mem_turns.mp member).1

/-- The call of a task obtained the lease, at `turn`, after its first reading
`now`. -/
structure Obtained (pool : Calls) (task : ℕ) (take : Take)
    (now generation : ℕ) (turn : Turn) : Prop where
  returns : pool.tasks[task]? = some (take, .done (.ok (some generation)))
  reading : ∃ asker before, (pool.turns task).head? =
    some ⟨asker, before, .nowMs, now⟩
  last : (pool.turns task).getLast? = some turn

/-- No other holder obtains a lease before it expires, unless its holder
shortened it. -/
def Exclusive (expiry : Take → ℕ → ℕ) (pool : Calls) : Prop :=
  ∀ {one other mine theirs now now' generation generation' taking turn later
      between earlier},
    Obtained pool one mine now generation taking →
    Obtained pool other theirs now' generation' turn →
    mine.lease = theirs.lease → mine.holder ≠ theirs.holder →
    pool.trace = later ++ turn :: (between ++ taking :: earlier) →
    expiry mine now ≤ turn.before.clock ∨
      ∃ past ∈ between, ∃ again, grant past = some again ∧
        again.lease = mine.lease ∧ again.holder = mine.holder ∧
        again.expiration < expiry mine now

/-- How the row of a lease may go on. -/
def Succeeds (before after : Leases) : Prop :=
  ∀ key row, before.rows.lookup key = some row →
    ∃ row', after.rows.lookup key = some row' ∧ row'.generation =
      row.generation + if row'.holder = row.holder then 0 else 1

/-- What the calls on leases keep. -/
structure Sound (leases : Leases) (moves : List (Move Take Conditions)) :
    Prop where
  obtained : ∀ {task : ℕ} {take : Take} {generation : ℕ},
    (system.run leases moves).tasks[task]? =
      some (take, .done (.ok (some generation))) →
    ∃ now turn, Obtained (system.run leases moves) task take now generation
      turn
  exclusive : Exclusive Take.expiration (system.run leases moves)
  fenced : ∀ {one other : ℕ} {mine theirs : Take} {generation : ℕ},
    (system.run leases moves).tasks[one]? =
      some (mine, .done (.ok (some generation))) →
    (system.run leases moves).tasks[other]? =
      some (theirs, .done (.ok (some generation))) →
    mine.lease = theirs.lease → mine.holder = theirs.holder
  counted : ∀ {earlier move}, earlier ++ [move] <+: moves →
    Succeeds (system.run leases earlier).shared
      (system.run leases (earlier ++ [move])).shared
  refused : ∀ {task : ℕ} {take : Take},
    (system.run leases moves).tasks[task]? =
      some (take, .done (.ok none)) →
    ∀ earlier conditions, earlier ++ [.step task conditions] <+: moves →
      (system.run leases (earlier ++ [.step task conditions])).shared.rows =
        (system.run leases earlier).shared.rows

section Run

variable {leases : Leases} {moves : List (Move Take Conditions)}

theorem Obtained.grant {pool : Calls} {task now generation : ℕ} {take : Take}
    {turn : Turn} (obtained : Obtained pool task take now generation turn)
    (follows : (tryTakeLeasedLock take).Follows (pool.turns task)
      (.done (.ok (some generation)))) :
    grant turn = some
      ⟨take.lease, take.holder, take.expiration now, generation⟩ := by
  obtain ⟨_, _, first, last, begins, ends, took⟩ := turns_of_some follows
  obtain ⟨_, _, reading⟩ := obtained.reading
  rw [obtained.last] at ends
  rw [reading] at begins
  cases begins
  cases ends
  exact took

theorem exclusive_of_run :
    Exclusive Take.expiration (system.run leases moves) := by
  intro one other mine theirs now now' generation generation' taking turn later
    between earlier obtained obtained' sameLease different split
  have took := obtained.grant (System.follows moves obtained.returns)
  have took' := obtained'.grant (System.follows moves obtained'.returns)
  have excludes := (good_of_run leases moves).excludes
  rw [split] at excludes
  exact excludes.at _ took' between taking earlier rfl _ took sameLease different

theorem fenced_of_run {one other generation : ℕ} {mine theirs : Take}
    (returns : (system.run leases moves).tasks[one]? =
      some (mine, .done (.ok (some generation))))
    (returns' : (system.run leases moves).tasks[other]? =
      some (theirs, .done (.ok (some generation))))
    (sameLease : mine.lease = theirs.lease) :
    mine.holder = theirs.holder := by
  have good := good_of_run leases moves
  obtain ⟨_, _, _, turn, _, last, took⟩ :=
    turns_of_some (System.follows moves returns)
  obtain ⟨_, _, _, turn', _, last', took'⟩ :=
    turns_of_some (System.follows moves returns')
  exact good.fenced turn
    (Pool.mem_turns.mp (List.mem_of_getLast? last)).1 turn'
    (Pool.mem_turns.mp (List.mem_of_getLast? last')).1 _ _ took took'
    sameLease rfl

theorem succeeds_of_move (moves : List (Move Take Conditions))
    (move : Move Take Conditions) :
    Succeeds (system.run leases moves).shared
      (system.run leases (moves ++ [move])).shared := by
  intro key row found
  rcases System.move_cases system leases moves move with same | asks
  · rw [same.1]
    exact ⟨row, found, by simp⟩
  · obtain ⟨task, conditions, request, _, is, _⟩ := asks
    rw [is, system_exec]
    rcases turn_cases (system.run leases moves).shared conditions task request
      with ⟨_, same⟩ | ⟨taken, _, wrote, allowed⟩
    · rw [same]
      exact ⟨row, found, by simp⟩
    · by_cases here : taken.lease = key
      · subst here
        refine ⟨⟨taken.holder, taken.expiration, taken.generation⟩, ?_, ?_⟩
        · rw [wrote, AList.lookup_insert]
        · rcases allowed with ⟨missing, _⟩ | ⟨was, _, there, _, _, counted⟩
          · rw [found] at missing
            cases missing
          · rw [found] at there
            obtain rfl := Option.some.inj there
            dsimp only
            rw [counted]
            simp only [eq_comm]
      · refine ⟨row, ?_, by simp⟩
        rw [wrote, AList.lookup_insert_ne (Ne.symm here)]
        exact found

theorem refused_of_run {task : ℕ} {take : Take}
    (returns : (system.run leases moves).tasks[task]? =
      some (take, .done (.ok none)))
    (earlier : List (Move Take Conditions)) (conditions : Conditions)
    (begins : earlier ++ [.step task conditions] <+: moves) :
    (system.run leases (earlier ++ [.step task conditions])).shared.rows =
      (system.run leases earlier).shared.rows := by
  rcases System.move_cases system leases earlier (.step task conditions) with
    same | asks
  · rw [same.1]
  · obtain ⟨mover, during, request, same, is, grown⟩ := asks
    cases same
    have member := (System.trace_suffix system leases begins).subset
    rw [grown] at member
    have there := member List.mem_cons_self
    have nothing := turns_of_none (System.follows moves returns) _
      (Pool.mem_turns.mpr ⟨there, rfl⟩)
    rw [is]
    rcases turn_cases (system.run leases earlier).shared conditions task
      request with ⟨_, kept⟩ | ⟨taken, took, _⟩
    · exact kept
    · exact absurd (nothing.symm.trans took) (by simp)

end Run

/-- In every run of calls on leases, a lease that was obtained is not obtained
by another holder before it expires, unless it was shortened, the generation
counts the changes of holder, and a refusal changes nothing. -/
theorem leases_sound (leases : Leases) (moves : List (Move Take Conditions)) :
    Sound leases moves := by
  refine ⟨?_, exclusive_of_run, fenced_of_run, ?_, refused_of_run⟩
  · intro task take generation returns
    obtain ⟨asker, before, now, turn, first, last, _⟩ :=
      turns_of_some (System.follows moves returns)
    exact ⟨now, turn, returns, ⟨asker, before, first⟩, last⟩
  · intro earlier move _
    exact succeeds_of_move earlier move

/-- Two replicas take a lease when `now_ms` comes to its last value. -/
def lastMillisecond : Calls :=
  system.run { clock := i64Max - 1, rows := ∅ }
    [.start ⟨"@bot", 100, "sync", "first"⟩,
      .start ⟨"@bot", 100, "sync", "second"⟩,
      .step 0 ⟨none, 0⟩, .step 0 ⟨none, 1⟩,
      .step 1 ⟨none, 0⟩, .step 1 ⟨none, 0⟩, .step 1 ⟨none, 0⟩,
      .step 1 ⟨none, 0⟩]

/-- The lease that the first one took expires too early. -/
theorem lastMillisecond_not_exclusive :
    ¬ Exclusive (fun take now => now + take.leaseDurationMs.toNat)
      lastMillisecond := by
  intro claimed
  have first : Obtained lastMillisecond 0 ⟨"@bot", 100, "sync", "first"⟩
      (i64Max - 1) 1 (lastMillisecond.trace.get ⟨4, by decide⟩) :=
    ⟨rfl, ⟨0, _, rfl⟩, rfl⟩
  have second : Obtained lastMillisecond 1 ⟨"@bot", 100, "sync", "second"⟩
      i64Max 2 (lastMillisecond.trace.get ⟨0, by decide⟩) :=
    ⟨rfl, ⟨1, _, rfl⟩, rfl⟩
  have split : lastMillisecond.trace =
      [] ++ lastMillisecond.trace.get ⟨0, by decide⟩ ::
        ((lastMillisecond.trace.drop 1).take 3 ++
          lastMillisecond.trace.get ⟨4, by decide⟩ ::
            lastMillisecond.trace.drop 5) := rfl
  rcases claimed first second rfl (by decide) split with late | shortened
  · have clock : (lastMillisecond.trace.get ⟨0, by decide⟩).before.clock =
        i64Max := rfl
    rw [clock] at late
    exact absurd late (by decide)
  · obtain ⟨past, member, again, took, _⟩ := shortened
    have nothing : ∀ past ∈ (lastMillisecond.trace.drop 1).take 3,
        grant past = none := by
      decide
    rw [nothing past member] at took
    cases took

end MiryadCore.Matrix
