import MiryadCore.Matrix.SyncSteps

/-!
# One replica synchronises an account at a time

Whoever synchronises has taken the lease last among the calls of its client,
and no two clients of an account have taken it for a time that has not ended.
-/

namespace MiryadCore.Matrix.Sync

section Single

variable (deployment : Deployment)

/-- The last take of the client is one by this task, for the whole duration
from a reading of the clock. -/
def Leased (client task : ℕ) (trace : List Turn) : Prop :=
  ∃ grant now, latest (deployment.client client) trace = some (task, grant) ∧
    grant.expiration = deployment.expiration client now ∧ Read task now trace

/-- The last take of the client has not ended. -/
def Live (client clock : ℕ) (trace : List Turn) : Prop :=
  ∃ entry, latest (deployment.client client) trace = some entry ∧
    clock < entry.2.expiration

/-- A call has found the slot of the client free, and has it. -/
def Enters (client : ℕ) : Turn → Prop
  | ⟨_, _, .swap number, .answered false⟩ => number = client
  | _ => False

/-- What only a call that has the slot does, the taking of it included. -/
def Inside (client : ℕ) (turn : Turn) : Prop :=
  turn.request.session = some client ∨ Enters client turn

/-- After a task had the slot of a client, it left it. -/
def Cleared (client task : ℕ) (trace : List Turn) : Prop :=
  ∀ later past earlier, trace = later ++ past :: earlier →
    Inside client past → past.task = task →
    ∃ turn ∈ later, turn.task = task ∧ turn.request = .clear client

/-- Whoever makes a request under an account has taken the lease, and each other
call of its client that has had the slot has left it; no other client of the
account has a lease that has not ended while one of them has. -/
structure Single (before : List Turn) (turn : Turn) : Prop where
  leased : ∀ client, turn.request.session = some client →
    Leased deployment client turn.task before
  alone : ∀ client, turn.request.session = some client →
    ∀ task, task ≠ turn.task → Cleared client task before
  exclusive : ∀ client other,
    (deployment.client client).accountKey =
      (deployment.client other).accountKey →
    Live deployment client turn.before.leases.clock before →
    Live deployment other turn.before.leases.clock before → client = other

/-- The names of the holders tell the clients of an account apart. -/
def Distinct : Prop :=
  ∀ client other, (deployment.client client).accountKey =
      (deployment.client other).accountKey →
    (deployment.client client).holderName =
      (deployment.client other).holderName →
    client = other

end Single

section Assertions

variable (deployment : Deployment)

/-- Without a slot, a client has left all that it had. -/
structure Inv (state : State) (trace : List Turn) : Prop where
  good : Good state.leases (trace.filterMap statementOf)
  cleared : ∀ client, state.started client = false →
    ∀ task, Cleared client task trace

structure Own (task : ℕ) (stage : Stage) (state : State)
    (trace : List Turn) : Prop where
  started : ∀ client, stage.token = some client →
    state.started client = true
  alone : ∀ client, stage.token = some client →
    ∀ other, other ≠ task → Cleared client other trace
  held : stage.held = true → Leased deployment stage.client task trace
  first : ∀ now, stage.first = some now → Read task now trace
  second : ∀ latest, stage.second = some latest →
    latest ≤ state.leases.clock

end Assertions

section Outline

variable {deployment : Deployment} {task client : ℕ} {stage : Stage}
  {state : State} {request : Request} {trace : List Turn} {turn : Turn}

theorem Stage.token_of_held (held : stage.held = true) :
    stage.token = some stage.client := by
  obtain ⟨client, phase⟩ := stage
  cases phase with
  | begin => cases held
  | out => cases held
  | idle held => rfl
  | read held now => rfl
  | placed held now => rfl
  | reread held now latest => rfl

theorem Cleared.cons (cleared : Cleared client task trace)
    (apart : Inside client turn → turn.task ≠ task) :
    Cleared client task (turn :: trace) := by
  intro later past earlier split inside same
  cases later with
  | nil =>
      obtain ⟨rfl, rfl⟩ := List.cons.inj split
      exact absurd same (apart inside)
  | cons first later =>
      obtain ⟨rfl, rfl⟩ := List.cons.inj split
      obtain ⟨left, member, leaves⟩ := cleared later past earlier rfl inside
        same
      exact ⟨left, List.mem_cons_of_mem _ member, leaves⟩

theorem not_inside_of_clear {number : ℕ} (leaves : turn.request = .clear number) :
    ¬ Inside client turn := by
  obtain ⟨asker, before, request, answer⟩ := turn
  obtain rfl := leaves
  rintro (session | enters)
  · cases session
  · exact enters

theorem swap_of_enters {conditions : Conditions}
    (enters : Enters client (made task state request conditions)) :
    request = .swap client ∧ state.started client = false := by
  cases request with
  | swap number =>
      change Enters client ⟨task, state, .swap number,
        .answered (state.started number)⟩ at enters
      cases unset : state.started number with
      | true =>
          rw [unset] at enters
          exact enters.elim
      | false =>
          rw [unset] at enters
          obtain rfl := enters
          exact ⟨rfl, unset⟩
  | _ => exact enters.elim

theorem cleared_of_clear (mine : turn.task = task)
    (leaves : turn.request = .clear client) :
    Cleared client task (turn :: trace) := by
  intro later past earlier split inside same
  cases later with
  | nil =>
      obtain ⟨rfl, rfl⟩ := List.cons.inj split
      exact absurd inside (not_inside_of_clear leaves)
  | cons first later =>
      obtain ⟨rfl, rfl⟩ := List.cons.inj split
      exact ⟨turn, List.mem_cons_self, mine, leaves⟩

theorem Read.cons {now : ℕ} (read : Read task now trace) :
    Read task now (turn :: trace) := by
  obtain ⟨before, member, same⟩ := read
  exact ⟨before, List.mem_cons_of_mem _ member, same⟩

theorem Leased.cons (leased : Leased deployment client task trace)
    (same : latest (deployment.client client) (turn :: trace) =
      latest (deployment.client client) trace) :
    Leased deployment client task (turn :: trace) := by
  obtain ⟨grant, now, last, whole, read⟩ := leased
  exact ⟨grant, now, same.trans last, whole, read.cons⟩

theorem perform_clock (conditions : Conditions) (state : State)
    (request : Request) :
    state.leases.clock ≤ (perform conditions state request).2.leases.clock := by
  rcases perform_leases 0 conditions state request with
    ⟨_, elapsed, waits⟩ | ⟨statement, elapsed, _, _, after⟩
  · rw [waits]
    exact Nat.le_add_right _ _
  · rw [after]
    exact (exec_clock state.leases conditions.statement statement).trans
      (Nat.le_add_right _ _)

theorem reading_of_made {conditions : Conditions} {asker now : ℕ}
    {before : State}
    (same : made task state request conditions =
      ⟨asker, before, .lease .nowMs, .answered now⟩) :
    now = state.leases.nowMs := by
  have asks : request = .lease .nowMs := congrArg Occurrence.request same
  subst asks
  have reads : (⟨task, state, .lease .nowMs, .answered state.leases.nowMs⟩ :
      Turn) = ⟨asker, before, .lease .nowMs, .answered now⟩ := same
  cases reads
  rfl

/-- Before and after its slot, nothing is asserted of a call. -/
theorem Own.bare (token : stage.token = none) (held : stage.held = false)
    (first : stage.first = none) (second : stage.second = none) :
    Own deployment task stage state trace where
  started := by
    intro client has
    rw [token] at has
    cases has
  alone := by
    intro client has
    rw [token] at has
    cases has
  held := by
    intro holds
    rw [held] at holds
    cases holds
  first := by
    intro now has
    rw [first] at has
    cases has
  second := by
    intro latest has
    rw [second] at has
    cases has

/-- A call keeps what is asserted of it. -/
theorem Own.reaches (inv : Inv state trace)
    (own : Own deployment task stage state trace)
    (allowed : stage.allows deployment request) (conditions : Conditions) :
    Own deployment task
      (stage.next deployment request (perform conditions state request).1)
      (perform conditions state request).2
      (made task state request conditions :: trace) := by
  rcases next_cases allowed task state (perform conditions state request).1 with
    ⟨begins, asks⟩ | ⟨_, leaves, out⟩ | goes
  · subst asks
    obtain ⟨client, phase⟩ := stage
    cases begins
    cases unset : state.started client with
    | true =>
        have out : Stage.next deployment ⟨client, .begin⟩ (.swap client)
            (perform conditions state (.swap client)).1 = ⟨client, .out⟩ := by
          show Stage.next deployment ⟨client, .begin⟩ (.swap client)
            (.answered (state.started client)) = _
          rw [unset]
          rfl
        dsimp only
        rw [out]
        exact Own.bare rfl rfl rfl rfl
    | false =>
        have within : Stage.next deployment ⟨client, .begin⟩ (.swap client)
            (perform conditions state (.swap client)).1 =
              ⟨client, .idle false⟩ := by
          show Stage.next deployment ⟨client, .begin⟩ (.swap client)
            (.answered (state.started client)) = _
          rw [unset]
          rfl
        dsimp only
        rw [within]
        refine ⟨?_, ?_, ?_, ?_, ?_⟩
        · intro other same
          obtain rfl := Option.some.inj same
          exact Function.update_self _ _ _
        · intro other same task' different
          obtain rfl := Option.some.inj same
          exact (inv.cleared client unset task').cons
            fun _ same => different same.symm
        · intro impossible
          cases impossible
        · intro now impossible
          cases impossible
        · intro latest impossible
          cases impossible
  · rw [out]
    exact Own.bare rfl rfl rfl rfl
  · refine ⟨?_, ?_, ?_, ?_, ?_⟩
    · intro client has
      rcases perform_started conditions state request with
        ⟨number, swaps, _⟩ | ⟨number, clears, _⟩ | ⟨_, _, kept⟩
      · exact absurd swaps (goes.swaps number)
      · exact absurd clears (goes.clears number)
      · rw [kept]
        rw [goes.keeps] at has
        exact own.started client (goes.token.trans has)
    · intro client has other different
      rw [goes.keeps] at has
      exact (own.alone client (goes.token.trans has) other different).cons
        fun _ same => different same.symm
    · intro held
      rw [goes.client]
      rcases goes.held held with ⟨nothing, before⟩ |
        ⟨now, grant, first, took, whole⟩
      · exact (own.held before).cons (latest_of_none nothing)
      · refine ⟨grant, now, ?_, whole, (own.first now first).cons⟩
        rw [latest_of_some took, if_pos (goes.takes _ took).2]
    · intro now first
      rcases goes.first now first with before | read
      · exact (own.first now before).cons
      · refine ⟨state, ?_, reading_of_made read⟩
        rw [← read]
        exact List.mem_cons_self
    · intro latest second
      rw [reading_of_made (goes.second latest second)]
      exact (Nat.min_le_left _ _).trans (perform_clock conditions state request)

/-- A request of a task keeps what is asserted of another one. -/
theorem Own.frames {other : ℕ} {otherStage : Stage}
    (distinct : Distinct deployment)
    (own : Own deployment other otherStage state trace)
    (allowed : stage.allows deployment request)
    (apart : ∀ client, stage.token = some client →
      otherStage.token ≠ some client) (conditions : Conditions) :
    Own deployment other otherStage (perform conditions state request).2
      (made task state request conditions :: trace) := by
  have quiet : ∀ client, otherStage.token = some client →
      ¬ Inside client (made task state request conditions) := by
    rintro client has (session | enters)
    · change request.session = some client at session
      rcases next_cases allowed task state (perform conditions state request).1
        with ⟨_, asks⟩ | ⟨_, leaves, _⟩ | goes
      · rw [asks] at session
        cases session
      · rw [leaves] at session
        cases session
      · obtain ⟨rfl, _⟩ := goes.session client session
        exact apart _ goes.token has
    · have unset := (swap_of_enters enters).2
      rw [own.started client has] at unset
      cases unset
  refine ⟨?_, ?_, ?_, ?_, ?_⟩
  · intro client has
    have set := own.started client has
    rcases perform_started conditions state request with
      ⟨number, swaps, same⟩ | ⟨number, clears, same⟩ | ⟨_, _, same⟩
    · rw [same, Function.update_apply]
      split
      next => rfl
      next => exact set
    · rw [same, Function.update_apply, if_neg, set]
      rintro rfl
      rcases next_cases allowed task state
        (perform conditions state request).1 with
        ⟨_, asks⟩ | ⟨token, leaves, _⟩ | goes
      · rw [asks] at clears
        cases clears
      · rw [leaves] at clears
        cases clears
        exact apart _ token has
      · exact goes.clears _ clears
    · rw [same, set]
  · intro client has third apart'
    exact (own.alone client has third apart').cons
      fun inside => absurd inside (quiet client has)
  · intro held
    have has := Stage.token_of_held held
    refine (own.held held).cons ?_
    cases took : taken (made task state request conditions) with
    | none => exact latest_of_none took
    | some entry =>
        rw [latest_of_some took, if_neg]
        intro takes
        rcases next_cases allowed task state
          (perform conditions state request).1 with
          ⟨_, asks⟩ | ⟨_, leaves, _⟩ | goes
        · subst asks
          cases took
        · subst leaves
          cases took
        · have mine := (goes.takes entry took).2
          unfold MatrixClient.takes at mine takes
          rw [decide_eq_true_eq] at mine takes
          have same := distinct _ _
            (congrArg Prod.fst (mine.1.symm.trans takes.1))
            (mine.2.symm.trans takes.2)
          exact apart _ goes.token (same ▸ has)
  · intro now first
    exact (own.first now first).cons
  · intro latest second
    exact (own.second latest second).trans
      (perform_clock conditions state request)

/-- A request of a call keeps the invariant. -/
theorem Inv.step (inv : Inv state trace)
    (own : Own deployment task stage state trace)
    (allowed : stage.allows deployment request) (conditions : Conditions) :
    Inv (perform conditions state request).2
      (made task state request conditions :: trace) := by
  have steps := next_cases allowed task state
    (perform conditions state request).1
  constructor
  · rcases perform_leases task conditions state request with
      ⟨nothing, elapsed, waits⟩ | ⟨statement, elapsed, asks, executes, after⟩
    · rw [List.filterMap_cons_none nothing, waits]
      exact good_wait inv.good elapsed
    · rw [List.filterMap_cons_some executes, after]
      apply good_wait
      apply inv.good.step
      cases statement with
      | nowMs => trivial
      | insert key holder expiration => trivial
      | update key holder expiration now =>
          rcases steps with ⟨_, impossible⟩ | ⟨_, impossible, _⟩ | goes
          · rw [asks] at impossible
            cases impossible
          · rw [asks] at impossible
            cases impossible
          · exact own.second now (goes.timely _ _ _ _ asks)
  · intro client unset other
    rcases perform_started conditions state request with
      ⟨number, swaps, same⟩ | ⟨number, clears, same⟩ | ⟨swaps, clears, same⟩
    · subst swaps
      rw [same, Function.update_apply] at unset
      split at unset
      next => cases unset
      next different =>
        refine (inv.cleared client unset other).cons ?_
        rintro (session | enters)
        · cases session
        · obtain ⟨same, _⟩ := swap_of_enters enters
          cases same
          exact absurd rfl different
    · subst clears
      rw [same, Function.update_apply] at unset
      split at unset
      next here =>
        subst here
        by_cases mine : task = other
        · exact cleared_of_clear mine rfl
        · rcases steps with ⟨_, impossible⟩ | ⟨token, leaves, _⟩ | goes
          · cases impossible
          · cases leaves
            exact (own.alone _ token other (Ne.symm mine)).cons
              fun inside => absurd inside (not_inside_of_clear rfl)
          · exact absurd rfl (goes.clears _)
      next =>
        exact (inv.cleared client unset other).cons
          fun inside => absurd inside (not_inside_of_clear rfl)
    · rw [same] at unset
      refine (inv.cleared client unset other).cons ?_
      rintro (session | enters)
      · rcases steps with ⟨_, asks⟩ | ⟨_, leaves, _⟩ | goes
        · exact absurd asks (swaps _)
        · exact absurd leaves (clears _)
        · obtain ⟨rfl, _⟩ := goes.session client session
          rw [own.started _ goes.token] at unset
          cases unset
      · exact absurd (swap_of_enters enters).1 (swaps client)

/-- Requests under an account are made by the call that holds its lease. -/
theorem session_cases (allowed : stage.allows deployment request)
    (session : request.session = some client) :
    client = stage.client ∧ stage.token = some client ∧ stage.held = true := by
  obtain ⟨number, phase⟩ := stage
  cases phase with
  | begin =>
      obtain rfl := allowed
      cases session
  | out => exact allowed.elim
  | idle held =>
      rcases allowed with rfl | rfl | ⟨secs, rfl⟩ | ⟨mine, rfl⟩
      · cases session
      · cases session
      · cases session
      · rw [mine] at session
        obtain rfl := Option.some.inj session
        exact ⟨rfl, rfl, rfl⟩
  | read held now =>
      obtain ⟨durationMs, rfl⟩ := allowed
      cases session
  | placed held now =>
      obtain rfl := allowed
      cases session
  | reread held now latest =>
      obtain ⟨durationMs, rfl⟩ := allowed
      cases session

/-- A slot that a call obtains is one that no other call has. -/
theorem renews_slot (own : Own deployment task stage state trace)
    (allowed : stage.allows deployment request) (conditions : Conditions)
    (has : (stage.next deployment request
      (perform conditions state request).1).token = some client) :
    stage.token = some client ∨ ∀ other otherStage,
      Own deployment other otherStage state trace →
        otherStage.token ≠ some client := by
  rcases next_cases allowed task state (perform conditions state request).1 with
    ⟨begins, asks⟩ | ⟨_, _, out⟩ | goes
  · subst asks
    obtain ⟨number, phase⟩ := stage
    cases begins
    change (Stage.next deployment ⟨number, .begin⟩ (.swap number)
      (.answered (state.started number))).token = some client at has
    cases unset : state.started number with
    | true =>
        rw [unset] at has
        cases has
    | false =>
        rw [unset] at has
        obtain rfl := Option.some.inj has
        right
        intro other otherStage held token
        rw [held.started _ token] at unset
        cases unset
  · rw [out] at has
    cases has
  · left
    rw [goes.keeps] at has
    exact goes.token.trans has

theorem outline (distinct : Distinct deployment) :
    Outline (replicas deployment) (slots deployment) (fun _ => True)
      Stage.token Inv (Own deployment) where
  obeys := runSync_obeys
  begins := fun _ _ _ _ _ _ _ => Own.bare rfl rfl rfl rfl
  bare := fun _ _ => rfl
  keeps := fun turn conditions => turn.inv.step turn.own turn.allowed conditions
  reaches := fun turn conditions =>
    Own.reaches turn.inv turn.own turn.allowed conditions
  renews := fun turn conditions _ has =>
    renews_slot turn.own turn.allowed conditions has
  frames := fun turn conditions _ _ _ own apart =>
    own.frames distinct turn.allowed apart conditions
  spawned := fun _ _ _ _ impossible => by cases impossible
  passes := fun _ _ _ _ impossible => by cases impossible

/-- Two last takes that have not ended are by one holder. -/
theorem Inv.exclusive (inv : Inv state trace) (distinct : Distinct deployment)
    {other : ℕ}
    (account : (deployment.client client).accountKey =
      (deployment.client other).accountKey)
    (live : Live deployment client state.leases.clock trace)
    (live' : Live deployment other state.leases.clock trace) :
    client = other := by
  obtain ⟨entry, last, runs⟩ := live
  obtain ⟨entry', last', runs'⟩ := live'
  have row_of : ∀ {number : ℕ} {entry : ℕ × Grant},
      latest (deployment.client number) trace = some entry →
      state.leases.clock < entry.2.expiration →
      ∃ row, state.leases.rows.lookup (deployment.client number).leaseKey =
        some row ∧ row.holder = (deployment.client number).holderName := by
    intro number entry last runs
    obtain ⟨takes, later, past, earlier, split, granted, alone⟩ :=
      split_of_latest last
    unfold MatrixClient.takes at takes
    rw [decide_eq_true_eq] at takes
    rcases inv.good.kept later past earlier split entry.2 granted with
      held | expired | shortened
    · obtain ⟨row, found, mine, _⟩ := held
      exact ⟨row, takes.1 ▸ found, mine.trans takes.2⟩
    · omega
    · obtain ⟨turn, member, again, granted', lease, holder, _⟩ := shortened
      exact absurd ⟨lease, holder⟩ (alone turn member again granted')
  obtain ⟨row, found, mine⟩ := row_of last runs
  obtain ⟨row', found', mine'⟩ := row_of last' runs'
  have sameKey : (deployment.client client).leaseKey =
      (deployment.client other).leaseKey :=
    congrArg (fun key => (key, SYNC_LEASE_KEY)) account
  rw [sameKey, found'] at found
  obtain rfl := Option.some.inj found
  exact distinct _ _ account (mine.symm.trans mine')

end Outline

/-- In every run of calls of `run_sync`, whoever makes a request under an
account has taken the lease of synchronisation by this call, alone among the
calls of its client, and no two clients of the account have a lease that has
not ended. -/
theorem single_synchroniser {deployment : Deployment}
    (distinct : Distinct deployment) (leases : Leases)
    (moves : List (Move Call Conditions)) :
    Throughout (Single deployment)
      ((replicas deployment).run
        { leases, started := fun _ => false } moves).trace := by
  have begins : Inv { leases, started := fun _ => false } [] := by
    refine ⟨good_of_run leases [], ?_⟩
    intro client _ task later past earlier split
    simp at split
  apply (outline distinct).run_holds begins
    (fun pool => Throughout (Single deployment) pool.trace)
  case idle => trivial
  case starts =>
    intro moves call _ before
    exact before
  case steps =>
    intro moves task stage conditions call request rest _ _ turn before
    refine ⟨⟨?_, ?_, ?_⟩, before⟩
    · intro client session
      obtain ⟨rfl, _, held⟩ := session_cases turn.allowed session
      exact turn.own.held held
    · intro client session other different
      obtain ⟨_, token, _⟩ := session_cases turn.allowed session
      exact turn.own.alone client token other different
    · intro client other account live live'
      exact turn.inv.exclusive distinct account live live'
  case admitted => exact fun move _ => by cases move <;> trivial

theorem pods_distinct : Distinct pods := by
  intro client other _ same
  have length := congrArg (fun name => name.toList.length) same
  simpa [pods] using length

theorem single_synchroniser_twoPods :
    Throughout (Single pods) twoPods.trace ∧
      (twoPods.trace.filterMap fun turn => turn.request.session) = [1, 1, 1] :=
  ⟨single_synchroniser pods_distinct _ _, rfl⟩

end MiryadCore.Matrix.Sync
