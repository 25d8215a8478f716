import Mathlib.Data.List.AList
import MiryadCore.Control.History
import MiryadCore.Users.Database

/-!
# The leases of the crypto store

A lease is taken by an insertion that does nothing when there is a row, then
by an update that decides on the row that it finds.  All readings are of one
clock, which never goes back.
-/

namespace MiryadCore.Matrix

open Users (DbErr)

/-- `i64::MAX` -/
def i64Max : ℕ := 2 ^ 63 - 1

inductive StoreError where
  | db (cause : DbErr)
  | cipher (text : String)
  | serialization (text : String)
  | corrupt (text : String)
  deriving DecidableEq, Repr

/-- A row of `miryad_matrix_leases`, its key apart. -/
structure Lease where
  holder : String
  expirationMs : ℕ
  generation : ℤ
  deriving DecidableEq, Repr

/-- The key of a row: that of the account and that of the lease. -/
abbrev LeaseKey : Type := String × String

/-- The rows, and the milliseconds that the clock shows. -/
structure Leases where
  clock : ℕ
  rows : AList fun _ : LeaseKey => Lease

/-- Whether a statement fails, and how long the request takes. -/
structure Conditions where
  fault : Option DbErr
  elapsed : ℕ

inductive Request where
  | nowMs
  | insert (key : LeaseKey) (holder : String) (expiration : ℕ)
  | update (key : LeaseKey) (holder : String) (expiration now : ℕ)
  deriving DecidableEq

@[reducible]
def Request.Reply : Request → Type
  | .nowMs => ℕ
  | .insert _ _ _ => Except DbErr ℕ
  | .update _ _ _ _ => Except DbErr (Option ℤ)

namespace Leases

/-- `now_ms` -/
def nowMs (leases : Leases) : ℕ :=
  min leases.clock i64Max

/-- `INSERT .. ON CONFLICT DO NOTHING`, with the rows affected. -/
def insert (leases : Leases) (key : LeaseKey) (holder : String)
    (expirationMs : ℕ) : ℕ × Leases :=
  match leases.rows.lookup key with
  | some _ => (0, leases)
  | none =>
      (1, { leases with
        rows := leases.rows.insert key
          { holder, expirationMs, generation := 1 } })

/-- `UPDATE .. RETURNING generation`; the `CASE` reads the row as it was. -/
def update (leases : Leases) (key : LeaseKey) (holder : String)
    (expirationMs now : ℕ) : Except DbErr (Option ℤ) × Leases :=
  match leases.rows.lookup key with
  | none => (.ok none, leases)
  | some row =>
      if row.holder = holder ∨ row.expirationMs ≤ now then
        let generation :=
          row.generation + if row.holder = holder then 0 else 1
        if (i64Max : ℤ) < generation then
          (.error (.other "bigint out of range"), leases)
        else
          (.ok (some generation), { leases with
            rows := leases.rows.insert key
              { holder, expirationMs, generation } })
      else (.ok none, leases)

def perform (leases : Leases) (fault : Option DbErr) :
    (request : Request) → request.Reply × Leases
  | .nowMs => (leases.nowMs, leases)
  | .insert key holder expiration =>
      match fault with
      | some error => (.error error, leases)
      | none =>
          let (affected, after) := leases.insert key holder expiration
          (.ok affected, after)
  | .update key holder expiration now =>
      match fault with
      | some error => (.error error, leases)
      | none => leases.update key holder expiration now

end Leases

/-- One request, after which the clock has gone on. -/
def exec : Script.Service Request Request.Reply Conditions Leases :=
  fun conditions leases request =>
    let (reply, after) := leases.perform conditions.fault request
    (reply, { after with clock := after.clock + conditions.elapsed })

/-- A call of `try_take_leased_lock` on the store of an account. -/
structure Take where
  accountKey : String
  leaseDurationMs : UInt32
  key : String
  holder : String

def Take.lease (take : Take) : LeaseKey :=
  (take.accountKey, take.key)

/-- `now_ms().saturating_add(..)` -/
def Take.expiration (take : Take) (now : ℕ) : ℕ :=
  min (now + take.leaseDurationMs.toNat) i64Max

abbrev Code : Type :=
  Script Request Request.Reply (Except StoreError (Option ℕ))

/-- `u64::try_from` -/
def generationOf (generation : ℤ) : Except StoreError (Option ℕ) :=
  if generation < 0 then .error (.corrupt "génération de bail négative")
  else .ok (some generation.toNat)

def tryTakeLeasedLock (take : Take) : Code :=
  .call .nowMs fun now =>
    let expiration := take.expiration now
    .call (.insert take.lease take.holder expiration) fun inserted =>
      match inserted with
      | .error error => .done (.error (.db error))
      | .ok affected =>
          if affected = 1 then .done (.ok (some 1))
          else
            .call .nowMs fun now =>
              .call (.update take.lease take.holder expiration now)
                fun updated =>
                  match updated with
                  | .error error => .done (.error (.db error))
                  | .ok none => .done (.ok none)
                  | .ok (some generation) => .done (generationOf generation)

/-- Calls of any holders, on the leases of any accounts. -/
def system :
    System Take Request Request.Reply Conditions Leases
      (Except StoreError (Option ℕ)) where
  program := tryTakeLeasedLock
  exec := exec
  ready := fun _ _ => true
  spawns := fun _ => none

@[simp]
theorem system_exec : system.exec = exec :=
  rfl

abbrev Calls : Type :=
  Pool Take Request Request.Reply Leases (Except StoreError (Option ℕ))

abbrev Turn : Type := Occurrence Request Request.Reply Leases

/-- What a request that takes a lease writes. -/
structure Grant where
  lease : LeaseKey
  holder : String
  expiration : ℕ
  generation : ℤ
  deriving DecidableEq

/-- The lease that a turn takes. -/
def grant : Turn → Option Grant
  | ⟨_, _, .insert key holder expiration, .ok affected⟩ =>
      if affected = 1 then some ⟨key, holder, expiration, 1⟩ else none
  | ⟨_, _, .update key holder expiration _, .ok (some generation)⟩ =>
      some ⟨key, holder, expiration, generation⟩
  | _ => none

theorem grant_nowMs (task : ℕ) (before : Leases) (now : ℕ) :
    grant ⟨task, before, .nowMs, now⟩ = none :=
  rfl

theorem grant_insert (task : ℕ) (before : Leases) (key : LeaseKey)
    (holder : String) (expiration affected : ℕ) :
    grant ⟨task, before, .insert key holder expiration, .ok affected⟩ =
      if affected = 1 then some ⟨key, holder, expiration, 1⟩ else none :=
  rfl

@[simp]
theorem grant_update (task : ℕ) (before : Leases) (key : LeaseKey)
    (holder : String) (expiration now : ℕ) (answer : Option ℤ) :
    grant ⟨task, before, .update key holder expiration now, .ok answer⟩ =
      answer.map fun generation => ⟨key, holder, expiration, generation⟩ := by
  cases answer with
  | none => rfl
  | some generation => rfl

/-- The reading on which a turn decides is not ahead of the clock. -/
def Timely (turn : Turn) : Prop :=
  match turn.request with
  | .update _ _ _ now => now ≤ turn.before.clock
  | _ => True

/-- A turn takes no lease and leaves the rows, or takes one as its row
allows. -/
theorem turn_cases (leases : Leases) (conditions : Conditions) (task : ℕ)
    (request : Request) :
    (grant ⟨task, leases, request, (exec conditions leases request).1⟩ = none ∧
      (exec conditions leases request).2.rows = leases.rows) ∨
    ∃ taken,
      grant ⟨task, leases, request, (exec conditions leases request).1⟩ =
        some taken ∧
      (exec conditions leases request).2.rows = leases.rows.insert taken.lease
        ⟨taken.holder, taken.expiration, taken.generation⟩ ∧
      ((leases.rows.lookup taken.lease = none ∧ taken.generation = 1) ∨
        ∃ row now, leases.rows.lookup taken.lease = some row ∧
          request = .update taken.lease taken.holder taken.expiration now ∧
          (row.holder = taken.holder ∨ row.expirationMs ≤ now) ∧
          taken.generation =
            row.generation + if row.holder = taken.holder then 0 else 1) := by
  cases request with
  | nowMs => exact Or.inl ⟨rfl, rfl⟩
  | insert key holder expiration =>
      cases fault : conditions.fault with
      | some error =>
          left
          simp [exec, Leases.perform, fault, grant]
      | none =>
          cases found : leases.rows.lookup key with
          | some row =>
              left
              simp [exec, Leases.perform, Leases.insert, fault, found, grant]
          | none =>
              right
              refine ⟨⟨key, holder, expiration, 1⟩, ?_, ?_,
                Or.inl ⟨found, rfl⟩⟩
              · simp [exec, Leases.perform, Leases.insert, fault, found, grant]
              · simp [exec, Leases.perform, Leases.insert, fault, found]
  | update key holder expiration now =>
      cases fault : conditions.fault with
      | some error =>
          left
          simp [exec, Leases.perform, fault, grant]
      | none =>
          cases found : leases.rows.lookup key with
          | none =>
              left
              simp [exec, Leases.perform, Leases.update, fault, found, grant]
          | some row =>
              by_cases free : row.holder = holder ∨ row.expirationMs ≤ now
              · by_cases concluded : (i64Max : ℤ) <
                    row.generation + if row.holder = holder then 0 else 1
                · left
                  simp [exec, Leases.perform, Leases.update, fault, found,
                    free, concluded, grant]
                · right
                  refine ⟨⟨key, holder, expiration, row.generation +
                    if row.holder = holder then 0 else 1⟩, ?_, ?_,
                    Or.inr ⟨row, now, found, rfl, free, rfl⟩⟩
                  · simp [exec, Leases.perform, Leases.update, fault, found,
                      free, concluded, grant]
                  · simp [exec, Leases.perform, Leases.update, fault, found,
                      free, concluded]
              · left
                simp [exec, Leases.perform, Leases.update, fault, found, free,
                  grant]

theorem Leases.insert_clock (leases : Leases) (key : LeaseKey)
    (holder : String) (expiration : ℕ) :
    (leases.insert key holder expiration).2.clock = leases.clock := by
  unfold Leases.insert
  split
  next => rfl
  next => rfl

theorem Leases.update_clock (leases : Leases) (key : LeaseKey)
    (holder : String) (expiration now : ℕ) :
    (leases.update key holder expiration now).2.clock = leases.clock := by
  unfold Leases.update
  split
  next => rfl
  next row found =>
    split
    next free =>
      dsimp only
      generalize (row.generation + if row.holder = holder then 0 else 1) =
        generation
      split
      next => rfl
      next => rfl
    next => rfl

theorem exec_clock (leases : Leases) (conditions : Conditions)
    (request : Request) :
    leases.clock ≤ (exec conditions leases request).2.clock := by
  have kept : (leases.perform conditions.fault request).2.clock =
      leases.clock := by
    cases request with
    | nowMs => rfl
    | insert key holder expiration =>
        cases conditions.fault with
        | some error => rfl
        | none => exact leases.insert_clock key holder expiration
    | update key holder expiration now =>
        cases conditions.fault with
        | some error => rfl
        | none => exact leases.update_clock key holder expiration now
  show leases.clock ≤
    (leases.perform conditions.fault request).2.clock + conditions.elapsed
  rw [kept]
  exact Nat.le_add_right _ _

end MiryadCore.Matrix
