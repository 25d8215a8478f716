import MiryadCore.Lymaille.ResourceModule
import MiryadCore.Rest.Outcomes

/-!
# Sequences of writes

The writes of a session or of a step, one after the other, on a database whose
statements succeed unless the tables refuse them.
-/

namespace MiryadCore.Lymaille

open Users (UserRow)
open Rest (AuthPrincipal)

variable {F64 ι : Type} {entities : ι → Entity}

inductive WriteCall where
  | create (resource : String) (body : Value)
  | update (resource : String) (id : ℤ) (body : Value)
  | delete (resource : String) (id : ℤ)
  deriving DecidableEq

namespace WriteCall

def resource : WriteCall → String
  | create resource _ => resource
  | update resource _ _ => resource
  | delete resource _ => resource

def check : WriteCall → Except Failure Unit
  | create _ _ => .ok ()
  | update _ id _ => Handle.i32TryFrom id
  | delete _ id => Handle.i32TryFrom id

def key (crates : Crates F64) : WriteCall → String
  | create resource body => opKey crates .create resource none body
  | update resource id body => opKey crates .update resource (some id) body
  | delete resource id => opKey crates .delete resource (some id) .null

end WriteCall

/-- The conditions of statements that succeed unless the tables refuse
them. -/
structure Calm (entities : ι → Entity) where
  now : ℤ
  gap : ℕ
  id : ℤ
  defaults : (i : ι) → Rest.Model (entities i).Column

def calm (e : Calm entities) : Conditions entities where
  fault := none
  now := e.now
  gap := e.gap
  id := e.id
  defaults := e.defaults

/-- A call, with what the database draws for its row. -/
structure Turn (entities : ι → Entity) where
  call : WriteCall
  conditions : Calm entities

/-- What a call meets: the counter of the writes and the database. -/
structure State (entities : ι → Entity) where
  writes : ℕ
  store : Store entities

/-- The account of the subject, as the database has it now. -/
def Handle.account (handle : Handle entities F64) (store : Store entities) :
    Option UserRow :=
  store.users.view.users.find? fun user => user.subject = handle.subject

/-- What a call needs before it looks at the journal: a writer and the
account of the subject. -/
def Handle.admission (handle : Handle entities F64) (state : State entities)
    (call : WriteCall) : Except Failure (ι × UserRow) := do
  Handle.chargeWrite state.writes
  match handle.account state.store with
  | none => throw .unknownSubject
  | some account =>
      call.check
      let i ← handle.writerOf call.resource
      return (i, account)

theorem Handle.admit_ok {handle : Handle entities F64}
    {state : State entities} {call : WriteCall} {i : ι} {account : UserRow}
    (admitted : handle.admission state call = .ok (i, account)) :
    handle.account state.store = some account ∧
      handle.writerOf call.resource = .ok i := by
  unfold Handle.admission at admitted
  cases charged : Handle.chargeWrite state.writes with
  | error failure => simp [charged, bind, Except.bind] at admitted
  | ok _ =>
      cases found : handle.account state.store with
      | none => simp [charged, found, bind, Except.bind] at admitted
      | some account =>
          cases checked : call.check with
          | error failure =>
              simp [charged, found, checked, bind, Except.bind] at admitted
          | ok _ =>
              cases writer : handle.writerOf call.resource with
              | error failure =>
                  simp [charged, found, checked, writer, bind, Except.bind]
                    at admitted
              | ok i =>
                  simp only [charged, found, checked, writer, bind,
                    Except.bind, pure, Except.pure, Except.ok.injEq,
                    Prod.mk.injEq] at admitted
                  rw [admitted.1, admitted.2]
                  exact ⟨rfl, rfl⟩

variable [DecidableEq ι]

/-- The database, under calm conditions. -/
def serve : Script.Service (Request entities)
    (fun request => Except Users.DbErr request.Reply) (Calm entities)
    (Store entities) :=
  fun e => exec (calm e)

/-- What a call does to its entity. -/
def Handle.rowWrite (handle : Handle entities F64) (call : WriteCall) (i : ι)
    (principal : AuthPrincipal) : Code entities Failure Value :=
  match call with
  | .create _ body => handle.createRow body i principal
  | .update _ id body => Writer.update i principal id body
  | .delete _ id => Writer.delete i principal id

def Handle.call (handle : Handle entities F64) (writes : ℕ) :
    WriteCall → Code entities Failure (Dynamic F64)
  | .create resource body => handle.create writes resource body
  | .update resource id body => handle.update writes resource id body
  | .delete resource id => handle.delete writes resource id

/-- What the script reads, and what the next call meets. -/
def Handle.turn (handle : Handle entities F64) (state : State entities)
    (turn : Turn entities) : Except String (Dynamic F64) × State entities :=
  let ends := (handle.call state.writes turn.call).run serve turn.conditions
    state.store
  (ends.1.mapError Failure.message,
    { writes := Handle.charged state.writes, store := ends.2 })

/-- The state after some calls. -/
def Handle.after (handle : Handle entities F64) (state : State entities)
    (turns : List (Turn entities)) : State entities :=
  turns.foldl (fun state turn => (handle.turn state turn).2) state

/-- The answer of a call after others. -/
def Handle.answer (handle : Handle entities F64) (state : State entities)
    (before : List (Turn entities)) (turn : Turn entities) :
    Except String (Dynamic F64) :=
  (handle.turn (handle.after state before) turn).1

section Runs

variable (handle : Handle entities F64) (e : Calm entities)
  (store : Store entities)

theorem run_account :
    (ofUsers (storeError handle.crates)
        (Users.statement (.selectUser handle.subject))).run serve e store =
      (.ok (handle.account store), store) :=
  run_ofUsers e store _ _

theorem run_isAdmin (user : ℤ) :
    ∃ answer, (ofUsers (storeError handle.crates)
        (Users.isAdmin user)).run serve e store = (.ok answer, store) := by
  have reads : Users.Reads (fun e : Calm entities => (calm e).toConditions)
      (Users.isAdmin user) store.users fun _ => True :=
    Users.reads_isMember_any user Users.adminGroupName
  obtain ⟨answer, read, _⟩ := reads.run (fun _ => rfl) e
  refine ⟨answer, (run_ofUsers e store _ _).trans ?_⟩
  rw [read]
  rfl

theorem run_resolve :
    ∃ isAdmin,
      (Identity.resolve handle.crates handle.subject).run serve e store =
        (match handle.account store with
          | none => .error .unknownSubject
          | some account => .ok ⟨account.id, account.subject, isAdmin⟩,
          store) := by
  have read := run_account handle e store
  cases found : handle.account store with
  | none =>
      rw [found] at read
      exact ⟨false, Query.run_bind_ok read⟩
  | some account =>
      rw [found] at read
      obtain ⟨isAdmin, answered⟩ := run_isAdmin handle e store account.id
      refine ⟨isAdmin, (Query.run_bind_ok read).trans ?_⟩
      exact Query.run_bind_ok answered

theorem run_resolvePrincipal :
    handle.resolvePrincipal.run serve e store =
      (match handle.account store with
        | none => .error .unknownSubject
        | some account => .ok (Handle.agent account.subject), store) := by
  obtain ⟨isAdmin, resolved⟩ := run_resolve handle e store
  have mapped : ((Identity.resolve handle.crates handle.subject).mapError
      Failure.ofLymaille).run serve e store = _ :=
    Query.run_mapError Failure.ofLymaille e _ store
  rw [resolved] at mapped
  cases found : handle.account store with
  | none =>
      rw [found] at mapped
      exact Query.run_bind_error mapped
  | some account =>
      rw [found] at mapped
      exact Query.run_bind_ok mapped

/-- A call answers at once unless it is admitted. -/
theorem run_call (writes : ℕ) (call : WriteCall) :
    (handle.call writes call).run serve e store =
      match handle.admission ⟨writes, store⟩ call with
      | .error failure => (.error failure, store)
      | .ok (i, account) =>
          (handle.journaled (call.key handle.crates)
            (handle.rowWrite call i (Handle.agent account.subject))).run serve
              e store := by
  have same : handle.call writes call = handle.write writes call.check
      call.resource (call.key handle.crates) (handle.rowWrite call) := by
    cases call
    all_goals rfl
  rw [same, Handle.write, Handle.admission]
  cases charge : Handle.chargeWrite writes with
  | error failure => rfl
  | ok charged =>
      refine (Query.run_bind_ok rfl).trans ?_
      have principal := run_resolvePrincipal handle e store
      cases found : handle.account store with
      | none =>
          rw [found] at principal
          simp only [bind, Except.bind]
          exact Query.run_bind_error principal
      | some account =>
          rw [found] at principal
          refine (Query.run_bind_ok principal).trans ?_
          simp only [bind, Except.bind]
          cases checked : call.check with
          | error failure => rfl
          | ok _ =>
              refine (Query.run_bind_ok rfl).trans ?_
              cases writer : handle.writerOf call.resource with
              | error failure => rfl
              | ok i => rfl

theorem run_journaled_none {key : String}
    {write : Code entities Failure Value} (interactive : handle.scope = none) :
    (handle.journaled key write).run serve e store =
      match write.run serve e store with
      | (.ok value, s') => (.ok (jsonToDynamic handle.crates value), s')
      | (.error failure, s') => (.error failure, s') := by
  unfold Handle.journaled Handle.replayed Handle.recordWrite
  rw [interactive]
  refine (Query.run_bind_ok rfl).trans ?_
  apply (Query.run_bind e _ _ _).trans
  cases write.run serve e store with
  | mk answer after =>
      cases answer with
      | ok value => exact Query.run_bind_ok rfl
      | error failure => rfl

theorem run_replayed {scope : WriteScope} (key : String)
    (batch : handle.scope = some scope) :
    (handle.replayed key).run serve e store =
      (.ok (store.lookup scope key), store) := by
  unfold Handle.replayed
  rw [batch]
  exact Query.run_mapError Failure.ofLymaille e _ store

theorem run_journaled_hit {scope : WriteScope} {key : String} {result : Value}
    {write : Code entities Failure Value} (batch : handle.scope = some scope)
    (hit : store.lookup scope key = some result) :
    (handle.journaled key write).run serve e store =
      (.ok (jsonToDynamic handle.crates result), store) := by
  have replayed := run_replayed handle e store key batch
  rw [hit] at replayed
  exact Query.run_bind_ok replayed

theorem run_recordWrite {scope : WriteScope} (key : String) (value : Value)
    (batch : handle.scope = some scope) :
    (handle.recordWrite key value).run serve e store =
      if Value.textBytes value.text > maxResultBytes then
        (.error .internal, store)
      else (.ok (), store.insertResult ⟨scope, key, value⟩) := by
  unfold Handle.recordWrite record
  rw [batch]
  apply (Query.run_mapError Failure.ofLymaille e _ store).trans
  by_cases long : Value.textBytes value.text > maxResultBytes
  · rw [if_pos long, if_pos long]
    rfl
  · rw [if_neg long, if_neg long]
    rfl

/-- A result is journaled, unless it is too long. -/
theorem run_journaled_miss {scope : WriteScope} {key : String}
    {write : Code entities Failure Value} (batch : handle.scope = some scope)
    (miss : store.lookup scope key = none) :
    (handle.journaled key write).run serve e store =
      match write.run serve e store with
      | (.ok value, s') =>
          if Value.textBytes value.text > maxResultBytes then
            (.error .internal, s')
          else
            (.ok (jsonToDynamic handle.crates value),
              s'.insertResult ⟨scope, key, value⟩)
      | (.error failure, s') => (.error failure, s') := by
  have replayed := run_replayed handle e store key batch
  rw [miss] at replayed
  refine (Query.run_bind_ok replayed).trans ?_
  apply (Query.run_bind e _ _ _).trans
  cases write.run serve e store with
  | mk answer after =>
      cases answer with
      | error failure => rfl
      | ok value =>
          have recorded := run_recordWrite handle e after key value batch
          dsimp only
          by_cases long : Value.textBytes value.text > maxResultBytes
          · rw [if_pos long] at recorded ⊢
            exact Query.run_bind_error recorded
          · rw [if_neg long] at recorded ⊢
            exact Query.run_bind_ok recorded

end Runs

end MiryadCore.Lymaille
