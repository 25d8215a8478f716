import MiryadCore.Matrix.BackupEffects

/-!
# The flags and the contents of the inbound sessions

The flag of a row is always that of its pickle.  A session keeps the content
that was saved last as long as no save is committed between the reading of a
row and its writing back.
-/

namespace MiryadCore.Matrix.Crypto

open Columns ReadCommitted

variable {Content Sealed : Type} [DecidableEq Sealed]

namespace CryptoStore

/-- What no interleaving breaks. -/
structure Tidy (store : CryptoStore Content Sealed)
    (database : Database Sealed) (trace : List (BackupTurn Sealed)) : Prop where
  exclusive : database.Exclusive
  committed : ∀ key row,
    database.rows.lookup (INBOUND_TABLE, key) = some row →
      Keyed schema (INBOUND_TABLE, key) row ∧ store.FlagAgrees row
  pending : ∀ tx key written,
    database.pending tx (INBOUND_TABLE, key) = some written →
      ∃ row, written = some row ∧ Keyed schema (INBOUND_TABLE, key) row ∧
        store.FlagAgrees row
  begun : ∀ tx key, database.transactions ≤ tx →
    store.savedBy tx (INBOUND_TABLE, key) trace = none

/-- Each row, committed or not, has the content that was saved last. -/
structure Current (store : CryptoStore Content Sealed)
    (database : Database Sealed) (trace : List (BackupTurn Sealed)) : Prop where
  committed : store.ContentsAgree database trace
  pending : ∀ tx key row,
    database.pending tx (INBOUND_TABLE, key) = some (some row) →
      store.contentOf row =
        (store.savedBy tx (INBOUND_TABLE, key) trace).or
          (store.lastSave (INBOUND_TABLE, key) trace)

/-- What a task knows at its stage. -/
def Own (store : CryptoStore Content Sealed) (task : ℕ) :
    BackupStage Sealed → Database Sealed → List (BackupTurn Sealed) → Prop
  | .saving tx, database, trace =>
      tx < database.transactions ∧
        ∀ key content, store.savedBy tx (INBOUND_TABLE, key) trace =
          some content →
            ∃ written, database.pending tx (INBOUND_TABLE, key) = some written
  | .marking tx rows, database, trace =>
      tx < database.transactions ∧
        (∀ key, store.savedBy tx (INBOUND_TABLE, key) trace = none) ∧
        (Throughout store.Unmoved trace →
          ∀ row ∈ rows, ∀ roomId sessionId,
            row "room_id" = some (.text roomId) →
            row "session_id" = some (.text sessionId) →
            store.overtaken task (INBOUND_TABLE,
                [store.account, .text roomId, .text sessionId]) trace = false →
              store.contentOf row = store.lastSave (INBOUND_TABLE,
                [store.account, .text roomId, .text sessionId]) trace)
  | _, _, _ => True

/-- The invariant of the runs. -/
def BackupInv (store : CryptoStore Content Sealed)
    (database : Database Sealed) (trace : List (BackupTurn Sealed)) : Prop :=
  store.Tidy database trace ∧
    (Throughout store.Unmoved trace → store.Current database trace)

section Invariant

variable {store : CryptoStore Content Sealed} {stage : BackupStage Sealed}
  {database after : Database Sealed} {turn : BackupTurn Sealed}
  {trace : List (BackupTurn Sealed)} {task : ℕ}

theorem lookup_view_cases {tx : ℕ} {key : Key (Value Sealed)}
    {row : Row (Value Sealed)}
    (found : (database.view tx).lookup key = some row) :
    database.pending tx key = some (some row) ∨
      (database.pending tx key = none ∧ database.rows.lookup key = some row)
      := by
  rw [Store.lookup_view] at found
  cases is : database.pending tx key with
  | none =>
      rw [is] at found
      exact Or.inr ⟨rfl, found⟩
  | some written =>
      rw [is] at found
      exact Or.inl (congrArg some found)

theorem Tidy.viewKeyed (tidy : store.Tidy database trace) :
    ViewKeyed database := by
  intro tx key row found
  rcases lookup_view_cases found with mine | committed
  · obtain ⟨row', same, keyed, _⟩ := tidy.pending tx key _ mine
    obtain rfl := Option.some.inj same
    exact keyed
  · exact (tidy.committed key row committed.2).1

/-- What no turn breaks. -/
theorem Tidy.step (tidy : store.Tidy database trace)
    (own : store.Own task stage database trace)
    (effect : store.Effect stage database after turn) :
    store.Tidy after (turn :: trace) := by
  cases effect with
  | still saves silent rows pending exclusive transactions =>
      refine ⟨exclusive tidy.exclusive, ?_, ?_, ?_⟩
      · intro key row found
        rw [rows] at found
        exact tidy.committed key row found
      · intro tx key written found
        rw [pending] at found
        exact tidy.pending tx key written found
      · intro tx key begun
        rw [savedBy_cons_of_none saves]
        exact tidy.begun tx key (transactions.trans begun)
  | write mover key row origin silent rows keyed flag pending exclusive
      transactions =>
      refine ⟨exclusive tidy.exclusive, ?_, ?_, ?_⟩
      · intro key' row' found
        rw [rows] at found
        exact tidy.committed key' row' found
      · intro tx key' written found
        rw [pending] at found
        split at found
        next here =>
          obtain rfl := here.2
          exact ⟨row, (Option.some.inj found).symm, keyed, flag⟩
        next => exact tidy.pending tx key' written found
      · intro tx key' begun
        rw [transactions] at begun
        cases origin with
        | saved content inside saves has =>
            subst inside
            rw [savedBy_cons_of_saves saves, if_neg]
            · exact tidy.begun tx key' begun
            · intro same
              obtain rfl := same.1
              exact absurd own.1 (Nat.not_lt.mpr begun)
        | read source row' roomId sessionId inside member room session here
            saves marks has =>
            rw [savedBy_cons_of_none saves]
            exact tidy.begun tx key' begun
  | commit mover inside saves commits same =>
      subst same
      refine ⟨tidy.exclusive.commit mover, ?_, ?_, ?_⟩
      · intro key row found
        rw [Store.lookup_commit, ← Store.lookup_view] at found
        rcases lookup_view_cases found with mine | committed
        · obtain ⟨row', is, keyed, flag⟩ := tidy.pending mover key _ mine
          obtain rfl := Option.some.inj is
          exact ⟨keyed, flag⟩
        · exact tidy.committed key row committed.2
      · intro tx key written found
        rw [Store.pending_commit] at found
        split at found
        next => cases found
        next => exact tidy.pending tx key written found
      · intro tx key begun
        rw [savedBy_cons_of_none saves]
        exact tidy.begun tx key begun
  | drop mover inside ends saves silent same =>
      subst same
      refine ⟨tidy.exclusive.rollback mover, ?_, ?_, ?_⟩
      · intro key row found
        exact tidy.committed key row found
      · intro tx key written found
        rw [Store.pending_rollback] at found
        split at found
        next => cases found
        next => exact tidy.pending tx key written found
      · intro tx key begun
        rw [savedBy_cons_of_none saves]
        exact tidy.begun tx key begun

theorem Own.savedBy_eq_none (own : store.Own task stage database trace)
    {tx : ℕ} (inside : stage.tx = some tx) {key : List (Value Sealed)}
    (free : database.pending tx (INBOUND_TABLE, key) = none) :
    store.savedBy tx (INBOUND_TABLE, key) trace = none := by
  cases stage with
  | idle marks => cases inside
  | saving held =>
      obtain rfl := Option.some.inj inside
      cases is : store.savedBy held (INBOUND_TABLE, key) trace with
      | none => rfl
      | some content =>
          obtain ⟨written, pending⟩ := own.2 key content is
          rw [free] at pending
          cases pending
  | marking held rows =>
      obtain rfl := Option.some.inj inside
      exact own.2.1 key
  | concluded => cases inside

theorem Own.savedBy_of_other (own : store.Own task stage database trace)
    (tidy : store.Tidy database trace) {tx other : ℕ}
    (inside : stage.tx = some tx) {key : List (Value Sealed)}
    {written : Option (Row (Value Sealed))} (different : other ≠ tx)
    (pending : database.pending other (INBOUND_TABLE, key) = some written) :
    store.savedBy tx (INBOUND_TABLE, key) trace = none := by
  apply own.savedBy_eq_none inside
  cases mine : database.pending tx (INBOUND_TABLE, key) with
  | none => rfl
  | some row => exact absurd (tidy.exclusive.pending pending mine) different

theorem Current.step (current : store.Current database trace)
    (tidy : store.Tidy database trace)
    (own : store.Own task stage database trace) (mine : turn.task = task)
    (earlier : Throughout store.Unmoved trace)
    (unmoved : store.Unmoved trace turn)
    (effect : store.Effect stage database after turn) :
    store.Current after (turn :: trace) := by
  cases effect with
  | still saves silent rows pending exclusive transactions =>
      refine ⟨?_, ?_⟩
      · intro key
        rw [rows, lastSave_cons_of_none silent]
        exact current.committed key
      · intro tx key row found
        rw [pending] at found
        rw [savedBy_cons_of_none saves, lastSave_cons_of_none silent]
        exact current.pending tx key row found
  | write mover key row origin silent rows keyed flag pending exclusive
      transactions =>
      refine ⟨?_, ?_⟩
      · intro key'
        rw [rows, lastSave_cons_of_none silent]
        exact current.committed key'
      intro tx key' row' found
      rw [pending] at found
      rw [lastSave_cons_of_none silent]
      cases origin with
      | saved content inside saves has =>
          rw [savedBy_cons_of_saves saves]
          by_cases here : tx = mover ∧ key' = key
          · obtain ⟨rfl, rfl⟩ := here
            rw [if_pos ⟨rfl, rfl⟩] at found ⊢
            rw [← Option.some.inj (Option.some.inj found), has, Option.some_or]
          · rw [if_neg here] at found
            rw [if_neg fun same => here ⟨same.1.symm,
              (Prod.mk.inj same.2).2.symm⟩]
            exact current.pending tx key' row' found
      | read source row'' roomId sessionId inside member room session here
          saves marks has =>
          rw [savedBy_cons_of_none saves]
          by_cases same : tx = mover ∧ key' = key
          · obtain ⟨rfl, rfl⟩ := same
            rw [if_pos ⟨rfl, rfl⟩] at found
            subst inside
            have kept := unmoved _ marks
            rw [mine, here] at kept
            rw [← Option.some.inj (Option.some.inj found), has, own.2.1,
              Option.none_or, here]
            exact own.2.2 earlier _ member roomId sessionId room session kept
          · rw [if_neg same] at found
            exact current.pending tx key' row' found
  | commit mover inside saves commits same =>
      subst same
      refine ⟨?_, ?_⟩
      · intro key
        rw [Store.lookup_commit, lastSave_cons_of_commits commits]
        cases is : database.pending mover (INBOUND_TABLE, key) with
        | none =>
            rw [own.savedBy_eq_none inside is, Option.none_or]
            exact current.committed key
        | some written =>
            obtain ⟨row, rfl, _⟩ := tidy.pending mover key written is
            exact current.pending mover key row is
      · intro tx key row found
        rw [Store.pending_commit] at found
        split at found
        next => cases found
        next different =>
          rw [savedBy_cons_of_none saves, lastSave_cons_of_commits commits,
            own.savedBy_of_other tidy inside different found, Option.none_or]
          exact current.pending tx key row found
  | drop mover inside ends saves silent same =>
      subst same
      refine ⟨?_, ?_⟩
      · intro key
        rw [lastSave_cons_of_none silent]
        exact current.committed key
      · intro tx key row found
        rw [Store.pending_rollback] at found
        rw [savedBy_cons_of_none saves, lastSave_cons_of_none silent]
        split at found
        next => cases found
        next => exact current.pending tx key row found

/-- What the transactions of other tasks do leaves what a task knows. -/
theorem Own.frame {other : ℕ} {otherStage : BackupStage Sealed}
    (own : store.Own task stage database trace)
    (known : store.Own other otherStage database trace)
    (mine : turn.task = task) (different : other ≠ task)
    (apart : ∀ held, stage.tx = some held → otherStage.tx ≠ some held)
    (effect : store.Effect stage database after turn) :
    store.Own other otherStage after (turn :: trace) := by
  have silent : ¬ (turn.task = other ∧ reads turn = true) := by
    intro both
    exact different (both.1.symm.trans mine)
  have begun : database.transactions ≤ after.transactions := by
    cases effect with
    | still saves silent rows pending exclusive transactions =>
        exact transactions
    | write tx key row origin silent rows keyed flag pending exclusive
        transactions => exact Nat.le_of_eq transactions.symm
    | commit tx inside saves commits same =>
        subst same
        exact le_rfl
    | drop tx inside ends saves silent same =>
        subst same
        exact le_rfl
  have unsaved : ∀ tx, otherStage.tx = some tx → ∀ key,
      store.savedBy tx (INBOUND_TABLE, key) (turn :: trace) =
        store.savedBy tx (INBOUND_TABLE, key) trace := by
    intro tx has key
    cases effect with
    | still saves silent rows pending exclusive transactions =>
        exact savedBy_cons_of_none saves
    | write mover key' row origin silent rows keyed flag pending exclusive
        transactions =>
        cases origin with
        | saved content inside saves has' =>
            subst inside
            rw [savedBy_cons_of_saves saves, if_neg]
            intro same
            obtain rfl := same.1
            exact apart mover rfl has
        | read source row' roomId sessionId inside member room session here
            saves marks has' => exact savedBy_cons_of_none saves
    | commit mover inside saves commits same => exact savedBy_cons_of_none saves
    | drop mover inside ends saves silent same =>
        exact savedBy_cons_of_none saves
  cases otherStage with
  | idle marks => trivial
  | saving tx =>
      refine ⟨known.1.trans_le begun, ?_⟩
      intro key content saved
      rw [unsaved tx rfl] at saved
      obtain ⟨written, pending⟩ := known.2 key content saved
      cases effect with
      | still saves silent rows kept exclusive transactions =>
          exact ⟨written, (kept tx key).trans pending⟩
      | write mover key' row origin silent rows keyed flag kept exclusive
          transactions =>
          rw [kept]
          split
          next => exact ⟨some row, rfl⟩
          next => exact ⟨written, pending⟩
      | commit mover inside saves commits same =>
          subst same
          rw [Store.pending_commit, if_neg]
          · exact ⟨written, pending⟩
          · intro same
            exact apart mover inside (congrArg some same)
      | drop mover inside ends saves silent same =>
          subst same
          rw [Store.pending_rollback, if_neg]
          · exact ⟨written, pending⟩
          · intro same
            exact apart mover inside (congrArg some same)
  | marking tx rows =>
      refine ⟨known.1.trans_le begun, ?_, ?_⟩
      · intro key
        rw [unsaved tx rfl]
        exact known.2.1 key
      · intro met row member roomId sessionId room session concluded
        obtain ⟨before, same⟩ := lastSave_cons_of_not_overtaken concluded silent
        rw [same]
        exact known.2.2 met.2 row member roomId sessionId room session before
  | concluded => trivial

/-- A task goes on in its transaction, and does not read. -/
theorem Own.stays (own : store.Own task stage database trace)
    (quiet : reads turn = false)
    (goes : ∀ tx, turn.request ≠ .commit tx ∧ turn.request ≠ .rollback tx)
    (effect : store.Effect stage database after turn) :
    store.Own task stage after (turn :: trace) := by
  have silent : ¬ (turn.task = task ∧ reads turn = true) := by
    intro both
    rw [quiet] at both
    cases both.2
  cases effect with
  | still saves silent' rows pending exclusive transactions =>
      cases stage with
      | idle marks => trivial
      | saving held =>
          refine ⟨own.1.trans_le transactions, ?_⟩
          intro key content saved
          rw [savedBy_cons_of_none saves] at saved
          rw [pending]
          exact own.2 key content saved
      | marking held read =>
          refine ⟨own.1.trans_le transactions, ?_, ?_⟩
          · intro key
            rw [savedBy_cons_of_none saves]
            exact own.2.1 key
          · intro met row member roomId sessionId room session concluded
            obtain ⟨before, same⟩ := lastSave_cons_of_not_overtaken concluded silent
            rw [same]
            exact own.2.2 met.2 row member roomId sessionId room session before
      | concluded => trivial
  | write mover key row origin silent' rows keyed flag pending exclusive
      transactions =>
      cases origin with
      | saved content inside saves has =>
          subst inside
          refine ⟨own.1.trans_eq transactions.symm, ?_⟩
          intro key' content' saved
          rw [pending]
          split
          next => exact ⟨some row, rfl⟩
          next other =>
            rw [savedBy_cons_of_saves saves, if_neg] at saved
            · exact own.2 key' content' saved
            · intro same
              exact other ⟨rfl, (Prod.mk.inj same.2).2.symm⟩
      | read source row' roomId sessionId inside member room session here
          saves marks has =>
          subst inside
          refine ⟨own.1.trans_eq transactions.symm, ?_, ?_⟩
          · intro key'
            rw [savedBy_cons_of_none saves]
            exact own.2.1 key'
          · intro met row' member' roomId' sessionId' room' session' concluded
            obtain ⟨before, same⟩ := lastSave_cons_of_not_overtaken concluded silent
            rw [same]
            exact own.2.2 met.2 row' member' roomId' sessionId' room' session'
              before
  | commit mover inside saves commits same =>
      exact absurd (request_of_commits commits) (goes mover).1
  | drop mover inside ends saves silent' same =>
      rcases ends with is | is
      · exact absurd is (goes mover).1
      · exact absurd is (goes mover).2

theorem Current.view (current : store.Current database trace) {tx : ℕ}
    (unsaved : ∀ key, store.savedBy tx (INBOUND_TABLE, key) trace = none)
    {key : List (Value Sealed)} {row : Row (Value Sealed)}
    (found : (database.view tx).lookup (INBOUND_TABLE, key) = some row) :
    store.contentOf row = store.lastSave (INBOUND_TABLE, key) trace := by
  rcases lookup_view_cases found with mine | committed
  · rw [current.pending tx key row mine, unsaved key, Option.none_or]
  · rw [← current.committed key, committed.2]
    rfl

/-- A task reads rows. -/
theorem Own.select {tx : ℕ} {rows : List (Row (Value Sealed))}
    {conds : List (String × Value Sealed)}
    {circumstances : Circumstances Sealed}
    (own : store.Own task (.marking tx rows) database trace)
    (tidy : store.Tidy database trace)
    (current : Throughout store.Unmoved trace → store.Current database trace) :
    store.Own task (.marking tx
        ((store.scopedSelect INBOUND_TABLE MARK_COLUMNS conds).answer
          circumstances (database.view tx))) database
      (⟨task, database,
        .select (some tx) (store.scopedSelect INBOUND_TABLE MARK_COLUMNS conds),
        .ok ((store.scopedSelect INBOUND_TABLE MARK_COLUMNS conds).answer
          circumstances (database.view tx))⟩ :: trace) := by
  refine ⟨own.1, ?_, ?_⟩
  · intro key
    rw [savedBy_cons_of_none rfl]
    exact own.2.1 key
  intro met row member roomId sessionId room session _
  rw [lastSave_cons_of_none rfl]
  obtain ⟨key, found, there, fits, rfl⟩ := Selection.mem_answer member
  have here : [store.account, .text roomId, .text sessionId] = key := by
    apply Eq.symm
    apply ((tidy.viewKeyed tx key found there).matches_iff rfl rfl).mp
    intro cond chosen
    rcases List.mem_cons.mp chosen with same | chosen
    · subst same
      exact fits _ List.mem_cons_self
    rcases List.mem_cons.mp chosen with same | chosen
    · subst same
      exact room
    rcases List.mem_cons.mp chosen with same | chosen
    · subst same
      exact session
    · cases chosen
  subst here
  have kept : store.contentOf (Row.project MARK_COLUMNS found) =
      store.contentOf found := rfl
  exact kept.trans ((current met.2).view own.2.1 there)

end Invariant

section Outline

variable (store : CryptoStore Content Sealed) (sdk : Sdk Content)

theorem own_next {stage : BackupStage Sealed} {database : Database Sealed}
    {trace : List (BackupTurn Sealed)} {task : ℕ} {request : Request Sealed}
    (inv : store.BackupInv database trace)
    (own : store.Own task stage database trace)
    (allowed : store.backupProtocol.allows stage request)
    (circumstances : Circumstances Sealed) :
    store.Own task
      (store.backupProtocol.next stage request
        (serve circumstances database request).1)
      (serve circumstances database request).2
      (⟨task, database, request, (serve circumstances database request).1⟩ ::
        trace) := by
  have effect := @effect_of_turn _ _ _ store stage database task
    inv.1.viewKeyed request allowed circumstances
  cases stage with
  | idle marks =>
      cases request with
      | begin =>
          unfold serve
          cases circumstances.fault with
          | some error => trivial
          | none =>
              cases marks with
              | true =>
                  refine ⟨Nat.lt_succ_self _, ?_, ?_⟩
                  · intro key
                    rw [savedBy_cons_of_none rfl]
                    exact inv.1.begun _ key le_rfl
                  · intro _ row member
                    cases member
              | false =>
                  refine ⟨Nat.lt_succ_self _, ?_⟩
                  intro key content saved
                  rw [savedBy_cons_of_none rfl] at saved
                  exact absurd (saved.symm.trans (inv.1.begun _ key le_rfl))
                    (by simp)
      | _ => exact allowed.elim
  | saving tx =>
      cases request with
      | execute other statement =>
          exact own.stays rfl (fun _ => ⟨nofun, nofun⟩) effect
      | maximum other table column conds =>
          exact own.stays rfl (fun _ => ⟨nofun, nofun⟩) effect
      | commit other => trivial
      | rollback other => trivial
      | _ => exact allowed.elim
  | marking tx rows =>
      cases request with
      | execute other statement =>
          exact own.stays rfl (fun _ => ⟨nofun, nofun⟩) effect
      | select other selection =>
          obtain ⟨rfl, conds, rfl⟩ := allowed
          revert effect
          unfold serve
          cases circumstances.fault with
          | some error =>
              intro effect
              exact own.stays rfl (fun _ => ⟨nofun, nofun⟩) effect
          | none =>
              intro _
              exact own.select inv.1 inv.2
      | commit other => trivial
      | rollback other => trivial
      | _ => exact allowed.elim
  | concluded => cases request with
      | _ => exact allowed.elim

/-- A transaction that a turn opens is new. -/
theorem tx_next {stage : BackupStage Sealed} {database : Database Sealed}
    {request : Request Sealed} {circumstances : Circumstances Sealed}
    (allowed : store.backupProtocol.allows stage request) {held : ℕ}
    (has : (store.backupProtocol.next stage request
      (serve circumstances database request).1).tx = some held) :
    stage.tx = some held ∨ held = database.transactions := by
  cases stage with
  | idle marks =>
      cases request with
      | begin =>
          revert has
          unfold serve
          cases circumstances.fault with
          | some error => exact nofun
          | none =>
              cases marks with
              | true => exact fun has => Or.inr (Option.some.inj has).symm
              | false => exact fun has => Or.inr (Option.some.inj has).symm
      | _ => exact allowed.elim
  | saving tx =>
      cases request with
      | execute other statement => exact Or.inl has
      | maximum other table column conds => exact Or.inl has
      | commit other => cases has
      | rollback other => cases has
      | _ => exact allowed.elim
  | marking tx rows =>
      cases request with
      | execute other statement => exact Or.inl has
      | select other selection =>
          revert has
          unfold serve
          cases circumstances.fault with
          | some error => exact Or.inl
          | none => exact Or.inl
      | commit other => cases has
      | rollback other => cases has
      | _ => exact allowed.elim
  | concluded => cases request with
      | _ => exact allowed.elim

theorem lt_of_own {stage : BackupStage Sealed} {database : Database Sealed}
    {trace : List (BackupTurn Sealed)} {task held : ℕ}
    (own : store.Own task stage database trace)
    (has : stage.tx = some held) : held < database.transactions := by
  cases stage with
  | idle marks => cases has
  | saving tx =>
      obtain rfl := Option.some.inj has
      exact own.1
  | marking tx rows =>
      obtain rfl := Option.some.inj has
      exact own.1
  | concluded => cases has

theorem outline :
    Outline (store.backups sdk) store.backupProtocol (fun _ => True)
      BackupStage.tx store.BackupInv store.Own where
  obeys := store.obeys_backupProgram sdk
  begins _ _ _ _ _ _ _ := trivial
  bare _ _ := rfl
  keeps := by
    intro task stage database trace request turn circumstances
    have effect := @effect_of_turn _ _ _ store stage database task
      turn.inv.1.viewKeyed request turn.allowed circumstances
    refine ⟨turn.inv.1.step turn.own effect, ?_⟩
    intro met
    exact (turn.inv.2 met.2).step turn.inv.1 turn.own rfl met.2 met.1 effect
  reaches := by
    intro task stage database trace request turn circumstances
    exact store.own_next turn.inv turn.own turn.allowed circumstances
  renews := by
    intro task stage database trace request turn circumstances held has
    rcases store.tx_next turn.allowed has with before | new
    · exact Or.inl before
    · right
      intro other otherStage own otherHas
      rw [new] at otherHas
      exact absurd (store.lt_of_own own otherHas) (Nat.lt_irrefl _)
  frames := by
    intro task stage database trace request turn circumstances other otherStage
      different own apart
    exact turn.own.frame own rfl different apart
      (effect_of_turn turn.inv.1.viewKeyed turn.allowed circumstances)
  spawned := by
    intro task stage database trace request turn circumstances call other spawns
    cases spawns
  passes := by
    intro task stage database trace request turn circumstances call held spawns
    cases spawns

theorem backupInv_empty : store.BackupInv Store.empty [] := by
  have nothing : ∀ tx key,
      (Store.empty : Database Sealed).pending tx key = none :=
    fun _ _ => rfl
  have none : ∀ key, (Store.empty : Database Sealed).rows.lookup key = none :=
    fun key => AList.lookup_empty key
  refine ⟨⟨?_, ?_, ?_, ?_⟩, ?_⟩
  · intro write member
    cases member
  · intro key row found
    rw [none] at found
    cases found
  · intro tx key written found
    rw [nothing] at found
    cases found
  · intro tx key _
    rfl
  · intro _
    refine ⟨?_, ?_⟩
    · intro key
      rw [none]
      rfl
    · intro tx key row found
      rw [nothing] at found
      cases found

theorem backupInv_of_run (moves : List (Move (BackupCall Content)
    (Circumstances Sealed))) :
    store.BackupInv ((store.backups sdk).run Store.empty moves).shared
      ((store.backups sdk).run Store.empty moves).trace := by
  obtain ⟨stages, outlined⟩ := (store.outline sdk).run store.backupInv_empty
    moves (by
      intro move _
      cases move with
      | start call => trivial
      | step task circumstances => trivial)
  exact outlined.inv

/-- In every run of saves and marks the flag of a row is that of its pickle,
and if no save of a row is committed between its reading and its writing back,
each session has the content that was saved last. -/
theorem backups_sound (moves : List (Move (BackupCall Content)
    (Circumstances Sealed))) :
    store.FlagsAgree ((store.backups sdk).run Store.empty moves).shared ∧
    (Throughout store.Unmoved
        ((store.backups sdk).run Store.empty moves).trace →
      ∀ earlier, earlier <+: moves →
        store.ContentsAgree
          ((store.backups sdk).run Store.empty earlier).shared
          ((store.backups sdk).run Store.empty earlier).trace) := by
  refine ⟨?_, ?_⟩
  · intro key row found
    exact ((store.backupInv_of_run sdk moves).1.committed key row found).2
  · intro met earlier begins
    exact ((store.backupInv_of_run sdk earlier).2
      (System.throughout_of_earlier begins met)).committed

end Outline

/-- A store that hashes and seals nothing. -/
def plainStore : CryptoStore ℕ (Plain ℕ) where
  accountKey := "@bot"
  cipher :=
    { hash := fun _ value => value
      encryptValue := .ok
      openSealed := .ok
      hash_injective := fun _ _ _ same => same
      open_encrypted := fun same => by cases same; rfl }

def plainSdk : Sdk ℕ where
  isEmpty changes := changes =
    { roomKeyBackupsFullyDownloaded := changes.roomKeyBackupsFullyDownloaded
      roomsPendingKeyBundle := changes.roomsPendingKeyBundle }
  accountFromPickle := .ok
  identityFromPickle := .ok
  deviceKeys := id
  identityKeys := id
  deviceId _ := "device"
  deviceFromAccount content :=
    { userId := "@bot", deviceId := "device", content }
  sessionFromPickle _ := .ok
  inboundFromPickle pickle := .ok pickle.content
  outboundFromPickle _ _ := .ok
  others_of_isEmpty same := of_decide_eq_true same

/-- Nothing fails. -/
def smooth : Circumstances (Plain ℕ) where
  fault := none
  shuffle rows := ⟨rows, .refl _⟩

def saveOf (content : ℕ) : Move (BackupCall ℕ) (Circumstances (Plain ℕ)) :=
  .start (.saveInboundGroupSessions
    [{ roomId := "!r", sessionId := "s", senderKey := "k", senderDataType := 0
       pickle := { backedUp := false, content } }] none)

instance {Content Sealed : Type} [DecidableEq Sealed]
    (store : CryptoStore Content Sealed) (earlier : List (BackupTurn Sealed))
    (turn : BackupTurn Sealed) : Decidable (store.Unmoved earlier turn) :=
  inferInstanceAs (Decidable (∀ key ∈ writesBack turn,
    store.overtaken turn.task key earlier = false))

/-- A session is saved, marked, saved again, and all marks are reset. -/
def marked : List (Move (BackupCall ℕ) (Circumstances (Plain ℕ))) :=
  [saveOf 1, .start (.mark [("!r", "s")]), saveOf 2, .start .reset] ++
    List.replicate 3 (.step 0 smooth) ++ List.replicate 4 (.step 1 smooth) ++
    List.replicate 3 (.step 2 smooth) ++ List.replicate 4 (.step 3 smooth)

theorem backups_sound_marked :
    Throughout plainStore.Unmoved
        ((plainStore.backups plainSdk).run Store.empty marked).trace ∧
      ∀ earlier, earlier <+: marked →
        plainStore.ContentsAgree
          ((plainStore.backups plainSdk).run Store.empty earlier).shared
          ((plainStore.backups plainSdk).run Store.empty earlier).trace := by
  have met : Throughout plainStore.Unmoved
      ((plainStore.backups plainSdk).run Store.empty marked).trace := by
    decide +kernel
  exact ⟨met, (plainStore.backups_sound plainSdk marked).2 met⟩

/-- A mark reads the first version of a session and writes it back after the
second one has been committed. -/
def overwritten : List (Move (BackupCall ℕ) (Circumstances (Plain ℕ))) :=
  [saveOf 1, .step 0 smooth, .step 0 smooth, .step 0 smooth,
    .start (.mark [("!r", "s")]), .step 1 smooth, .step 1 smooth,
    saveOf 2, .step 2 smooth, .step 2 smooth, .step 2 smooth,
    .step 1 smooth, .step 1 smooth]

theorem overwritten_not_current :
    ¬ plainStore.ContentsAgree
      ((plainStore.backups plainSdk).run Store.empty overwritten).shared
      ((plainStore.backups plainSdk).run Store.empty overwritten).trace := by
  intro agrees
  have stored := agrees [.text "@bot", .text "!r", .text "s"]
  have different :
      ((((plainStore.backups plainSdk).run Store.empty
        overwritten).shared.rows.lookup (INBOUND_TABLE,
          [.text "@bot", .text "!r", .text "s"])).bind
            plainStore.contentOf) = some 1 ∧
      plainStore.lastSave (INBOUND_TABLE,
          [.text "@bot", .text "!r", .text "s"])
        ((plainStore.backups plainSdk).run Store.empty overwritten).trace =
          some 2 := by
    decide +kernel
  rw [different.1, different.2] at stored
  cases stored

end CryptoStore

end MiryadCore.Matrix.Crypto
