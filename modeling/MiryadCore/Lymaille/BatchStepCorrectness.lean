import MiryadCore.Lymaille.Writers
import MiryadCore.Control.Prefixes
import MiryadCore.Rest.Listing

/-!
# A step with and without its journal

The same calls, made once with the journal of a step and once without any.
The tables stay the same, and so do the answers, but for those that the journal
is there to change, as long as a call that finds its key in the journal is an
update which has nothing to write.
-/

namespace MiryadCore.Lymaille

open Users (UserRow)
open Rest (AuthPrincipal)

variable {F64 ι : Type} {entities : ι → Entity}

/-- The handle of an interactive session. -/
def Handle.interactive (handle : Handle entities F64) : Handle entities F64 :=
  { handle with scope := none }

/-- The handle of a batch step. -/
def Handle.within (handle : Handle entities F64) (scope : WriteScope) :
    Handle entities F64 :=
  { handle with scope := some scope }

/-- The journaled result of a call that is admitted. -/
def Handle.hit (handle : Handle entities F64) (scope : WriteScope)
    (state : State entities) (call : WriteCall) : Option Value :=
  match handle.admission state call with
  | .error _ => none
  | .ok _ => state.store.lookup scope (call.key handle.crates)

/-- The update would write what its row holds, which is also the journaled
result. -/
def Settled (handle : Handle entities F64) (store : Store entities)
    (call : WriteCall) (result : Value) : Prop :=
  match call with
  | .update resource id body => ∃ i account model row active value,
      handle.writerOf resource = .ok i ∧
      handle.account store = some account ∧
      modelFromJson (entities i) body = .ok model ∧
      Rest.Updates (entities i).resource (store.part i)
        (Handle.agent account.subject) account id model row active ∧
      Rest.Table.overwrite (Rest.updateActive (entities i).resource row.values
        id active) row.values = row.values ∧
      rowValue (entities i) row.values = .ok value ∧
      jsonToDynamic handle.crates value = jsonToDynamic handle.crates result
  | _ => False

/-- The row that a creation finds again, after a unique violation. -/
def Writer.reread (entity : Entity) (table : Rest.Table entity.schema)
    (body : Value) : Except Failure (Option Value) :=
  match entity.resource.labelColumn with
  | none => .ok none
  | some column =>
      match body.asObject with
      | none => .ok none
      | some object =>
          match Writer.labelValue object (entity.columnName column) with
          | none => .ok none
          | some value => Writer.firstMatching entity object
              ((table.rows.filter fun row =>
                Rest.Condition.holds [(column, value)] row.values).map
                  Rest.StoredRow.values)

/-- The answer with a journal, next to the one without: the same, unless the
result is too long for the journal, or a creation meets a row with its label
and its fields. -/
inductive Redress (handle : Handle entities F64) (store : Store entities)
    (journaled : Option Value) (call : WriteCall) :
    Except String (Dynamic F64) → Except String (Dynamic F64) → Prop where
  | same (answer : Except String (Dynamic F64)) :
      Redress handle store journaled call answer answer
  | tooLong (value : Value)
      (long : Value.textBytes value.text > maxResultBytes) :
      Redress handle store journaled call
        (.ok (jsonToDynamic handle.crates value))
        (.error Failure.internal.message)
  | reread (resource : String) (body : Value) (i : ι) (value : Value)
      (creation : call = .create resource body) (fresh : journaled = none)
      (writer : handle.writerOf resource = .ok i)
      (found : Writer.reread (entities i) (store.tables i) body =
        .ok (some value))
      (short : Value.textBytes value.text ≤ maxResultBytes) :
      Redress handle store journaled call
        (.error Failure.conflict.message)
        (.ok (jsonToDynamic handle.crates value))
  | unread (resource : String) (body : Value) (i : ι)
      (creation : call = .create resource body) (fresh : journaled = none)
      (writer : handle.writerOf resource = .ok i)
      (refused : ∀ value, Writer.reread (entities i) (store.tables i) body =
        .ok value → ∃ row, value = some row ∧
          Value.textBytes row.text > maxResultBytes) :
      Redress handle store journaled call
        (.error Failure.conflict.message) (.error Failure.internal.message)

variable [DecidableEq ι] {handle : Handle entities F64} {i : ι}
  {store : Store entities} {account : UserRow}

theorem run_rereadMatching (i : ι) (e : Calm entities) (store : Store entities)
    (body : Value) :
    (Writer.rereadMatching i body : Code entities Failure _).run serve e
      store = (Writer.reread (entities i) (store.tables i) body, store) := by
  unfold Writer.rereadMatching Writer.reread
  cases (entities i).resource.labelColumn with
  | none => rfl
  | some column =>
      cases body.asObject with
      | none => rfl
      | some object =>
          dsimp only
          cases Writer.labelValue object ((entities i).columnName column) with
          | none => rfl
          | some value => exact Query.run_bind_ok rfl

/-- A creation, once its writer has answered. -/
theorem run_createRow (i : ι) (handle : Handle entities F64) (e : Calm entities)
    (store : Store entities) (body : Value) (principal : AuthPrincipal) :
    (handle.createRow body i principal).run serve e store =
      match (Writer.create i principal body).run serve e store with
      | (.ok value, s') => (.ok value, s')
      | (.error failure, s') =>
          if failure = .uniqueViolation then
            if handle.scope.isSome then
              match Writer.reread (entities i) (s'.tables i) body with
              | .ok (some row) => (.ok row, s')
              | .ok none => (.error .conflict, s')
              | .error failure => (.error failure, s')
            else (.error .conflict, s')
          else (.error failure, s') := by
  have attempted : (Writer.create i principal body :
      Code entities Failure Value).attempt.run serve e store = _ :=
    Query.run_attempt e _ store
  refine (Query.run_bind_ok attempted).trans ?_
  cases (Writer.create i principal body).run serve e store with
  | mk answer after =>
      cases answer with
      | ok value => rfl
      | error failure =>
          dsimp only
          by_cases unique : failure = .uniqueViolation
          · subst unique
            rw [if_pos rfl]
            dsimp only
            by_cases batch : handle.scope.isSome = true
            · rw [if_pos batch, if_pos batch]
              have reread := run_rereadMatching i e after body
              cases found : Writer.reread (entities i) (after.tables i)
                  body with
              | error failure =>
                  rw [found] at reread
                  exact Query.run_bind_error reread
              | ok row =>
                  rw [found] at reread
                  cases row with
                  | none => exact Query.run_bind_ok reread
                  | some row => exact Query.run_bind_ok reread
            · rw [if_neg batch, if_neg batch]
              rfl
          · rw [if_neg unique]
            cases failure
            case uniqueViolation => exact (unique rfl).elim
            all_goals rfl

theorem run_createRow_store (i : ι) (handle : Handle entities F64) (e : Calm entities)
    (store : Store entities) (body : Value) (principal : AuthPrincipal) :
    ((handle.createRow body i principal).run serve e store).2 =
      ((Writer.create i principal body).run serve e store).2 := by
  rw [run_createRow]
  cases (Writer.create i principal body).run serve e store with
  | mk answer after =>
      cases answer with
      | ok value => rfl
      | error failure =>
          dsimp only
          split
          · split
            · split
              · rfl
              · rfl
              · rfl
            · rfl
          · rfl

theorem rowWrite_users (has : HasAccount handle store account)
    (e : Calm entities) (call : WriteCall) :
    ((handle.rowWrite call i (Handle.agent account.subject)).run serve e
      store).2.users = store.users := by
  cases call with
  | update resource id body => exact (update_ends i has e id body).users
  | delete resource id => exact (delete_ends i has e id).users
  | create resource body =>
      have same := run_createRow_store i handle e store body
        (Handle.agent account.subject)
      exact (congrArg Store.users same).trans (create_ends i has e body).users

/-- A write that is made again, without a journal. -/
theorem rowWrite_again_iff (has : HasAccount handle store account)
    (e : Calm entities) (call : WriteCall)
    (writer : handle.writerOf call.resource = .ok i) (result : Value) :
    (∃ value s', (handle.interactive.rowWrite call i
          (Handle.agent account.subject)).run serve e store =
        (.ok value, s') ∧
      jsonToDynamic handle.crates value = jsonToDynamic handle.crates result ∧
      s'.tables = store.tables) ↔ Settled handle store call result := by
  cases call with
  | create resource body =>
      constructor
      · intro again
        obtain ⟨value, s', ran, _, same⟩ := again
        have runs := run_createRow i handle.interactive e store body
          (Handle.agent account.subject)
        have created : (Writer.create i (Handle.agent account.subject)
            body).run serve e store = (.ok value, s') := by
          have ended := runs.symm.trans ran
          cases outcome : (Writer.create i (Handle.agent account.subject)
              body).run serve e store with
          | mk answer after =>
              rw [outcome] at ended
              cases answer with
              | ok value => exact ended
              | error failure =>
                  dsimp only at ended
                  split at ended
                  · simp [Handle.interactive] at ended
                  · cases ended
        exact (create_changes has created same).elim
      · exact fun impossible => impossible.elim
  | delete resource id =>
      constructor
      · intro again
        obtain ⟨value, s', ran, _, same⟩ := again
        exact (delete_changes has ran same).elim
      · exact fun impossible => impossible.elim
  | update resource id body =>
      have unchanged := fun value => update_unchanged_iff i has e id
        body value
      constructor
      · intro again
        obtain ⟨value, s', ran, equal, same⟩ := again
        have whole : s' = store := by
          apply Store.ext
          · have users := (update_ends i has e id body).users
            exact (congrArg Store.users
              (congrArg Prod.snd ran)).symm.trans users
          · exact same
          · have journal := (localTo_update i
              (Handle.agent account.subject) id body).journal e store
            exact (congrArg Store.journal
              (congrArg Prod.snd ran)).symm.trans journal
        obtain ⟨model, row, active, valid, updates, settled, returned⟩ :=
          (unchanged value).mp (whole ▸ ran)
        exact ⟨i, account, model, row, active, value, writer, has.found,
          valid, updates, settled, returned, equal⟩
      · intro settled
        obtain ⟨i', account', model, row, active, value, writer', found,
          valid, updates, settled, returned, equal⟩ := settled
        obtain rfl := Except.ok.inj (writer.symm.trans writer')
        obtain rfl := Option.some.inj (has.found.symm.trans found)
        refine ⟨value, store, ?_, equal, rfl⟩
        exact (unchanged value).mpr
          ⟨model, row, active, valid, updates, settled, returned⟩

/-- The two executions, between two calls. -/
structure Paired (journaled plain : State entities) : Prop where
  writes : journaled.writes = plain.writes
  beside : Beside journaled.store plain.store

omit [DecidableEq ι] in
theorem admit_paired {journaled plain : State entities}
    (paired : Paired journaled plain) (call : WriteCall) :
    handle.admission journaled call = handle.admission plain call := by
  unfold Handle.admission Handle.account
  rw [paired.writes, paired.beside.users]

omit [DecidableEq ι] in
theorem Redress.of_hit {result : Value} {call : WriteCall}
    {plain : Except String (Dynamic F64)} {answer : Dynamic F64}
    (redress : Redress handle store (some result) call plain (.ok answer)) :
    plain = .ok answer := by
  cases redress with
  | same => rfl
  | reread resource body i value creation fresh writer found short =>
      cases fresh

/-- A call that finds its key in the journal. -/
theorem journaled_hit_iff {journaled plain : Store entities}
    (beside : Beside journaled plain) (scope : WriteScope)
    (has : HasAccount handle plain account) (e : Calm entities)
    (call : WriteCall) (writer : handle.writerOf call.resource = .ok i)
    {result : Value}
    (hit : journaled.lookup scope (call.key handle.crates) = some result) :
    ((((handle.within scope).journaled (call.key handle.crates)
          ((handle.within scope).rowWrite call i
            (Handle.agent account.subject))).run serve e
              journaled).2.tables =
        ((handle.interactive.journaled (call.key handle.crates)
          (handle.interactive.rowWrite call i
            (Handle.agent account.subject))).run serve e plain).2.tables ∧
      Redress handle plain (some result) call
        (((handle.interactive.journaled (call.key handle.crates)
          (handle.interactive.rowWrite call i
            (Handle.agent account.subject))).run serve e
              plain).1.mapError Failure.message)
        ((((handle.within scope).journaled (call.key handle.crates)
          ((handle.within scope).rowWrite call i
            (Handle.agent account.subject))).run serve e
              journaled).1.mapError Failure.message)) ↔
      Settled handle plain call result := by
  rw [run_journaled_hit (handle.within scope) e journaled rfl hit,
    run_journaled_none handle.interactive e plain rfl,
    ← rowWrite_again_iff has e call writer result]
  cases ran : (handle.interactive.rowWrite call i
      (Handle.agent account.subject)).run serve e plain with
  | mk answer after =>
      constructor
      · intro agrees
        obtain ⟨tables, redress⟩ := agrees
        cases answer with
        | ok value =>
            exact ⟨value, after, rfl, Except.ok.inj redress.of_hit,
              tables.symm.trans beside.tables⟩
        | error failure =>
            have impossible := redress.of_hit
            cases impossible
      · intro again
        obtain ⟨value, s', same, equal, tables⟩ := again
        obtain ⟨rfl, rfl⟩ := Prod.mk.inj same
        refine ⟨beside.tables.trans tables.symm, ?_⟩
        have redress : Redress handle plain (some result) call
            (.ok (jsonToDynamic handle.crates value))
            (.ok (jsonToDynamic handle.crates result)) := by
          rw [equal]
          exact Redress.same _
        exact redress

omit [DecidableEq ι] in
theorem reread_error {entity : Entity} {table : Rest.Table entity.schema}
    {body : Value} {failure : Failure}
    (failed : Writer.reread entity table body = .error failure) :
    failure = .internal := by
  have first : ∀ object rows, Writer.firstMatching entity object rows =
      .error failure → failure = .internal := by
    intro object rows
    induction rows with
    | nil => exact fun failed => nomatch failed
    | cons row rows induction =>
        intro failed
        unfold Writer.firstMatching at failed
        cases written : rowValue entity row with
        | error error =>
            simp only [written, bind, Except.bind, Except.error.injEq]
              at failed
            rw [← failed]
            exact rowValue_error written
        | ok value =>
            simp only [written, bind, Except.bind] at failed
            split at failed
            · cases failed
            · exact induction failed
  unfold Writer.reread at failed
  split at failed
  · cases failed
  split at failed
  · cases failed
  split at failed
  · cases failed
  · exact first _ _ failed

/-- The two handles write the same, unless a creation violates a unique
index. -/
theorem rowWrite_modes (has : HasAccount handle store account)
    (scope : WriteScope) (e : Calm entities) (call : WriteCall) :
    ((handle.within scope).rowWrite call i
        (Handle.agent account.subject)).run serve e store =
      (handle.interactive.rowWrite call i
        (Handle.agent account.subject)).run serve e store ∨
    ∃ resource body, call = .create resource body ∧
      (handle.interactive.rowWrite call i
        (Handle.agent account.subject)).run serve e store =
          (.error .conflict, store) ∧
      ((∃ row, Writer.reread (entities i) (store.tables i) body =
          .ok (some row) ∧
        ((handle.within scope).rowWrite call i
          (Handle.agent account.subject)).run serve e store =
            (.ok row, store)) ∨
      ∃ failure, Writer.reread (entities i) (store.tables i) body =
          .error failure ∧
        ((handle.within scope).rowWrite call i
          (Handle.agent account.subject)).run serve e store =
            (.error .internal, store)) := by
  cases call with
  | update resource id body => exact Or.inl rfl
  | delete resource id => exact Or.inl rfl
  | create resource body =>
      have left := run_createRow i (handle.within scope) e store body
        (Handle.agent account.subject)
      have right := run_createRow i handle.interactive e store body
        (Handle.agent account.subject)
      cases created : (Writer.create i (Handle.agent account.subject)
          body).run serve e store with
      | mk answer after =>
          rw [created] at left right
          cases answer with
          | ok value => exact Or.inl (left.trans right.symm)
          | error failure =>
              dsimp only at left right
              by_cases unique : failure = .uniqueViolation
              · subst unique
                obtain rfl := create_unique has created
                have batch : (handle.within scope).scope.isSome = true := rfl
                rw [if_pos rfl, if_pos batch] at left
                rw [if_pos rfl, if_neg (by simp [Handle.interactive])]
                  at right
                cases found : Writer.reread (entities i) (after.tables i)
                    body with
                | error failure =>
                    rw [found, reread_error found] at left
                    exact Or.inr ⟨resource, body, rfl, right,
                      Or.inr ⟨failure, found, left⟩⟩
                | ok row =>
                    rw [found] at left
                    cases row with
                    | none => exact Or.inl (left.trans right.symm)
                    | some row =>
                        exact Or.inr ⟨resource, body, rfl, right,
                          Or.inl ⟨row, found, left⟩⟩
              · rw [if_neg unique] at left right
                exact Or.inl (left.trans right.symm)

/-- A call that does not find its key in the journal. -/
theorem journaled_miss {journaled plain : Store entities}
    (beside : Beside journaled plain) (scope : WriteScope)
    (has : HasAccount handle plain account) (e : Calm entities)
    (call : WriteCall) (writer : handle.writerOf call.resource = .ok i)
    (miss : journaled.lookup scope (call.key handle.crates) = none) :
    (((handle.within scope).journaled (call.key handle.crates)
          ((handle.within scope).rowWrite call i
            (Handle.agent account.subject))).run serve e
              journaled).2.tables =
        ((handle.interactive.journaled (call.key handle.crates)
          (handle.interactive.rowWrite call i
            (Handle.agent account.subject))).run serve e plain).2.tables ∧
      Redress handle plain none call
        (((handle.interactive.journaled (call.key handle.crates)
          (handle.interactive.rowWrite call i
            (Handle.agent account.subject))).run serve e
              plain).1.mapError Failure.message)
        ((((handle.within scope).journaled (call.key handle.crates)
          ((handle.within scope).rowWrite call i
            (Handle.agent account.subject))).run serve e
              journaled).1.mapError Failure.message) := by
  rw [run_journaled_miss (handle.within scope) e journaled rfl miss,
    run_journaled_none handle.interactive e plain rfl]
  obtain ⟨answers, tables⟩ := (localTo_rowWrite (handle.within scope) call
    (Handle.agent account.subject)).beside e beside
  rcases rowWrite_modes has scope e call with same | other
  · rw [same] at answers tables
    cases ran : ((handle.within scope).rowWrite call i
        (Handle.agent account.subject)).run serve e journaled with
    | mk answer after =>
        cases ran' : (handle.interactive.rowWrite call i
            (Handle.agent account.subject)).run serve e plain with
        | mk answer' after' =>
            rw [ran, ran'] at answers tables
            obtain rfl : answer = answer' := answers
            cases answer with
            | error failure => exact ⟨tables.tables, Redress.same _⟩
            | ok value =>
                dsimp only
                split
                · rename_i long
                  exact ⟨tables.tables, Redress.tooLong value long⟩
                · refine ⟨?_, Redress.same _⟩
                  rw [Store.insertResult]
                  split
                  · exact tables.tables
                  · exact tables.tables
  · obtain ⟨resource, body, rfl, right, reread⟩ := other
    rw [right]
    cases ran : ((handle.within scope).rowWrite (.create resource body) i
        (Handle.agent account.subject)).run serve e journaled with
    | mk answer after =>
        rw [ran] at answers tables
        rcases reread with ⟨row, found, left⟩ | ⟨failure, failed, left⟩
        · rw [left] at answers tables
          obtain rfl : answer = .ok row := answers
          dsimp only
          split
          · rename_i long
            refine ⟨tables.tables, Redress.unread resource body i rfl rfl
              writer ?_⟩
            intro value again
            rw [found] at again
            exact ⟨row, (Except.ok.inj again).symm, long⟩
          · rename_i short
            refine ⟨?_, Redress.reread resource body i row rfl rfl writer
              found (Nat.le_of_not_lt short)⟩
            rw [Store.insertResult]
            split
            · exact tables.tables
            · exact tables.tables
        · rw [left] at answers tables
          obtain rfl : answer = .error .internal := answers
          refine ⟨tables.tables, Redress.unread resource body i rfl rfl
            writer ?_⟩
          intro value again
          rw [failed] at again
          cases again

/-- A call with a journal and without one, from the same tables. -/
theorem turn_redressed_iff {journaled plain : State entities}
    (paired : Paired journaled plain) (scope : WriteScope)
    (consistent : plain.store.users.view.Consistent) (turn : Turn entities) :
    (((handle.within scope).turn journaled turn).2.store.tables =
        (handle.interactive.turn plain turn).2.store.tables ∧
      Redress handle plain.store (handle.hit scope journaled turn.call)
        turn.call (handle.interactive.turn plain turn).1
        ((handle.within scope).turn journaled turn).1) ↔
      ∀ result, handle.hit scope journaled turn.call = some result →
        Settled handle plain.store turn.call result := by
  unfold Handle.turn Handle.hit
  have left := run_call (handle.within scope) turn.conditions journaled.store
    journaled.writes turn.call
  have right := run_call handle.interactive turn.conditions plain.store
    plain.writes turn.call
  have admitted : (handle.within scope).admission
      ⟨journaled.writes, journaled.store⟩ turn.call =
        handle.admission plain turn.call := admit_paired paired turn.call
  rw [admitted] at left
  have admitted' : handle.admission journaled turn.call =
      handle.admission plain turn.call := admit_paired paired turn.call
  have plainly : handle.interactive.admission ⟨plain.writes, plain.store⟩
      turn.call = handle.admission plain turn.call := rfl
  rw [plainly] at right
  rw [left, right, admitted']
  cases admission : handle.admission plain turn.call with
  | error failure =>
      constructor
      · intro _ result hit
        cases hit
      · intro _
        exact ⟨paired.beside.tables, Redress.same _⟩
  | ok answer =>
      obtain ⟨i, account⟩ := answer
      obtain ⟨found, writer⟩ := Handle.admit_ok admission
      have has : HasAccount handle plain.store account := ⟨consistent, found⟩
      cases looked : journaled.store.lookup scope
          (turn.call.key handle.crates) with
      | some result =>
          have agrees := journaled_hit_iff paired.beside scope has
            turn.conditions turn.call writer looked
          refine Iff.trans agrees ?_
          constructor
          · intro settled other same
            obtain rfl := Option.some.inj same
            exact settled
          · exact fun all => all result rfl
      | none =>
          have agrees := journaled_miss paired.beside scope has
            turn.conditions turn.call writer looked
          constructor
          · intro _ result hit
            cases hit
          · exact fun _ => agrees

/-- No call changes the users. -/
theorem turn_users (handle : Handle entities F64) (state : State entities)
    (consistent : state.store.users.view.Consistent)
    (turn : Turn entities) :
    (handle.turn state turn).2.store.users = state.store.users := by
  unfold Handle.turn
  have runs := run_call handle turn.conditions state.store state.writes
    turn.call
  rw [runs]
  cases admission : handle.admission ⟨state.writes, state.store⟩ turn.call with
  | error failure => rfl
  | ok answer =>
      obtain ⟨i, account⟩ := answer
      obtain ⟨found, _⟩ := Handle.admit_ok admission
      have users := rowWrite_users (i := i) ⟨consistent, found⟩
        turn.conditions turn.call
      cases scope : handle.scope with
      | none =>
          dsimp only
          rw [run_journaled_none handle _ _ scope]
          cases ran : (handle.rowWrite turn.call i
              (Handle.agent account.subject)).run serve turn.conditions
                state.store with
          | mk answer after =>
              rw [ran] at users
              cases answer with
              | ok value => exact users
              | error failure => exact users
      | some scope' =>
          dsimp only
          cases looked : state.store.lookup scope'
              (turn.call.key handle.crates) with
          | some result => rw [run_journaled_hit handle _ _ scope looked]
          | none =>
              rw [run_journaled_miss handle _ _ scope looked]
              cases ran : (handle.rowWrite turn.call i
                  (Handle.agent account.subject)).run serve turn.conditions
                    state.store with
              | mk answer after =>
                  rw [ran] at users
                  cases answer with
                  | error failure => exact users
                  | ok value =>
                      dsimp only
                      split
                      · exact users
                      · rw [Store.insertResult]
                        split
                        · exact users
                        · exact users

theorem Handle.after_append (handle : Handle entities F64)
    (state : State entities) (before : List (Turn entities))
    (turn : Turn entities) :
    handle.after state (before ++ [turn]) =
      (handle.turn (handle.after state before) turn).2 := by
  simp [Handle.after, List.foldl_append]

/-- For the calls of an uninterrupted step, with the journal of the step and
without any.  The tables are the same after every call, and the answers are
those that the journal lets differ, exactly as long as a call that finds its
key in the journal is an update whose row holds what it would write. -/
theorem journaled_agrees_iff (handle : Handle entities F64)
    (scope : WriteScope) (start : State entities)
    (consistent : start.store.users.view.Consistent)
    (turns : List (Turn entities)) :
    (∀ before turn, Precede turns before turn →
      ((handle.within scope).after start (before ++ [turn])).store.tables =
          (handle.interactive.after start (before ++ [turn])).store.tables ∧
        Redress handle (handle.interactive.after start before).store
          (handle.hit scope ((handle.within scope).after start before)
            turn.call) turn.call
          (handle.interactive.answer start before turn)
          ((handle.within scope).answer start before turn)) ↔
    ∀ before turn, Precede turns before turn → ∀ result,
      handle.hit scope ((handle.within scope).after start before) turn.call =
        some result →
      Settled handle (handle.interactive.after start before).store turn.call
        result := by
  refine forall_precede_iff (fun before =>
    Paired ((handle.within scope).after start before)
      (handle.interactive.after start before) ∧
    (handle.interactive.after start before).store.users =
      start.store.users) ?_ ?_ ?_
  · exact ⟨⟨rfl, rfl, rfl⟩, rfl⟩
  · intro before turn invariant
    obtain ⟨paired, users⟩ := invariant
    rw [Handle.after_append, Handle.after_append]
    exact turn_redressed_iff paired scope (users ▸ consistent) turn
  · intro before turn invariant agrees
    obtain ⟨paired, users⟩ := invariant
    have plain : (handle.interactive.after start
        before).store.users.view.Consistent := users ▸ consistent
    have left := turn_users (handle.within scope) _
      (paired.beside.users ▸ plain) turn
    have right := turn_users handle.interactive _ plain turn
    rw [Handle.after_append, Handle.after_append] at agrees ⊢
    refine ⟨⟨?_, ?_, agrees.1⟩, right.trans users⟩
    · exact congrArg Handle.charged paired.writes
    · exact left.trans (paired.beside.users.trans right.symm)

open Rest (NoteColumn SeaValue)

/-- The JSON of a column of a note. -/
def seaJson : SeaValue → Value
  | .int (some n) => idValue (some n)
  | .string (some text) => .string text
  | _ => .null

/-- Notes that their owner writes. -/
def noteEntity : Entity where
  Column := NoteColumn
  decidable := inferInstance
  fintype := inferInstance
  resource := { Rest.notes.toResource with writePolicy := .ownerOnly }
  columnName
    | .id => "id"
    | .owner => "owner"
    | .title => "title"
  toValue row := .ok (.object [
    ("id", seaJson (row .id)),
    ("owner", seaJson (row .owner)),
    ("title", seaJson (row .title))])
  fromValue body :=
    match body.get? "id", body.get? "title" with
    | some (.number id), some (.string title) =>
        .ok (Rest.note ((asI64 id).getD 0)
          (match body.get? "owner" with
            | some (.number owner) => asI64 owner
            | _ => none) title)
    | _, _ => .error "missing field"

def noteHandle : Handle (fun _ : Unit => noteEntity) Unit where
  crates := {
    sha256Hex := String.ofList
    dbText := fun _ => ""
    asF64 := fun _ => none }
  registry := { entries := [⟨(), true⟩], distinct := by decide }
  subject := "alice"
  scope := none

def noteState : State (fun _ : Unit => noteEntity) where
  writes := 0
  store := {
    users := Rest.noteStore.users
    tables := fun _ => {
      rows := [⟨Rest.note 2 (some 7) "plan", 2, true, some "alice"⟩]
      used := [2]
      fits := by decide
      keys := by decide
      unique := by decide }
    journal := [] }

def noteStep : WriteScope := ⟨"run", "step"⟩

def noteTurn (call : WriteCall) : Turn (fun _ : Unit => noteEntity) where
  call
  conditions := {
    now := 0
    gap := 0
    id := 3
    defaults := fun _ => Rest.note 3 none "" }

def noteBody (id owner : ℤ) (title : String) : Value :=
  .object [("id", idValue (some id)), ("owner", idValue (some owner)),
    ("title", .string title)]

/-- The titles of the notes after some calls. -/
def titlesAfter (handle : Handle (fun _ : Unit => noteEntity) Unit)
    (calls : List WriteCall) : List SeaValue :=
  ((handle.after noteState (calls.map noteTurn)).store.tables ()).rows.map
    fun row => row.values .title

theorem noteState_consistent :
    noteState.store.users.view.Consistent := by
  constructor
  all_goals decide

/-- Two updates of a note, a note that is created, and the first one deleted. -/
def noteTurns : List (Turn (fun _ : Unit => noteEntity)) :=
  [.update "notes" 2 (noteBody 2 7 "x"), .update "notes" 2 (noteBody 2 7 "y"),
    .create "notes" (noteBody 0 7 "other"), .delete "notes" 2].map noteTurn

theorem journaled_agrees_on_notes :
    ((noteHandle.within noteStep).after noteState noteTurns).store.tables =
      (noteHandle.interactive.after noteState noteTurns).store.tables := by
  have missed : ∀ n < 4, ∀ turn ∈ noteTurns[n]?,
      (noteHandle.hit noteStep ((noteHandle.within noteStep).after noteState
        (noteTurns.take n)) turn.call).isNone = true := by
    decide
  have agrees := (journaled_agrees_iff noteHandle noteStep noteState
    noteState_consistent noteTurns).mpr (by
      intro before turn precede result hit
      obtain ⟨rest, same⟩ := precede
      have here : noteTurns[before.length]? = some turn := by simp [same]
      have taken : noteTurns.take before.length = before := by simp [same]
      have inside : before.length < 4 := (List.getElem?_eq_some_iff.mp here).1
      have none := missed before.length inside turn here
      rw [taken, hit] at none
      cases none)
  exact (agrees (noteTurns.take 3) _ ⟨[], rfl⟩).1

/-- The note goes to `x`, to `y`, and to `x` again, which the journal does not
let happen; and a creation meets a note with its title and its owner. -/
theorem journaled_differs :
    (titlesAfter (noteHandle.within noteStep)
        [.update "notes" 2 (noteBody 2 7 "x"),
          .update "notes" 2 (noteBody 2 7 "y"),
          .update "notes" 2 (noteBody 2 7 "x")] = [.string (some "y")] ∧
      titlesAfter noteHandle.interactive
        [.update "notes" 2 (noteBody 2 7 "x"),
          .update "notes" 2 (noteBody 2 7 "y"),
          .update "notes" 2 (noteBody 2 7 "x")] = [.string (some "x")]) ∧
    ((noteHandle.within noteStep).answer noteState []
        (noteTurn (.create "notes" (noteBody 0 7 "plan")))).isOk = true ∧
      noteHandle.interactive.answer noteState []
        (noteTurn (.create "notes" (noteBody 0 7 "plan"))) =
          .error Failure.conflict.message := by
  refine ⟨⟨?_, ?_⟩, ?_, ?_⟩
  · decide
  · decide
  · decide
  · rfl

end MiryadCore.Lymaille
