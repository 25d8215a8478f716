import MiryadCore.Control.History
import MiryadCore.Rest.Resource

/-!
# The tokens of the API

A token is known by the hash of its secret, which the table has at most once.
The calls that allocate, check and revoke tokens run beside each other, one
statement at a time; their readings are of one clock, which never goes back.
-/

namespace MiryadCore.Auth

open Rest (AuthPrincipal)
open Users (DbErr nextval)

inductive AuthError where
  | notAuthenticated
  | invalidSession
  | invalidCallback
  | csrfMismatch
  | oidc (text : String)
  | invalidToken
  | tokenExpired
  | tokenHashConflict
  | invalidBearer
  | bearerExpired
  | database (cause : DbErr)
  | internal (text : String)
  deriving DecidableEq, Repr

/-- The hash under the pepper, and the text of random bytes. -/
structure Secrets where
  hashToken : String → Except AuthError String
  encode : List UInt8 → String
  injective : ∀ {token other hash}, hashToken token = .ok hash →
    hashToken other = .ok hash → token = other

/-- A row of `miryad_api_tokens`. -/
structure Token where
  id : ℤ
  subject : String
  name : String
  tokenHash : String
  createdAt : ℤ
  expiresAt : Option ℤ
  lastUsedAt : Option ℤ
  deriving DecidableEq, Repr

/-- The rows, with the sequence of their keys, and the clock. -/
structure Tokens where
  clock : ℤ
  rows : List Token
  nextId : ℤ

/-- What the database and the machine decide at a request. -/
structure Conditions where
  fault : Option DbErr
  gap : ℕ
  elapsed : ℕ
  bytes : List UInt8

inductive Request where
  | random
  | now
  | select (tokenHash : String)
  | insert (subject name tokenHash : String) (createdAt : ℤ)
      (expiresAt : Option ℤ)
  | touch (id lastUsedAt : ℤ)
  | delete (id : ℤ)
  deriving DecidableEq

@[reducible]
def Request.Reply : Request → Type
  | .random => List UInt8
  | .now => ℤ
  | .select _ => Except DbErr (Option Token)
  | .insert _ _ _ _ _ => Except DbErr Token
  | .touch _ _ => Except DbErr Unit
  | .delete _ => Except DbErr ℕ

namespace Tokens

/-- The `INSERT`; `token_hash` is `UNIQUE`, and the sequence advances even if the
row is refused. -/
def insert (tokens : Tokens) (gap : ℕ) (subject name tokenHash : String)
    (createdAt : ℤ) (expiresAt : Option ℤ) : Except DbErr Token × Tokens :=
  match nextval tokens.nextId gap with
  | .error error => (.error error, tokens)
  | .ok id =>
      let tokens := { tokens with nextId := id + 1 }
      if tokens.rows.any fun row => row.tokenHash = tokenHash then
        (.error (.uniqueViolation "miryad_api_tokens_token_hash_key"), tokens)
      else
        let row := { id, subject, name, tokenHash, createdAt, expiresAt
                     lastUsedAt := none }
        (.ok row, { tokens with rows := tokens.rows ++ [row] })

/-- The `UPDATE` of `last_used_at`, the only column that is set. -/
def touch (tokens : Tokens) (id lastUsedAt : ℤ) : Except DbErr Unit × Tokens :=
  if tokens.rows.any fun row => row.id = id then
    (.ok (), { tokens with rows := tokens.rows.map fun row =>
      if row.id = id then { row with lastUsedAt := some lastUsedAt }
      else row })
  else (.error .recordNotUpdated, tokens)

def delete (tokens : Tokens) (id : ℤ) : ℕ × Tokens :=
  ((tokens.rows.filter fun row => row.id = id).length,
    { tokens with rows := tokens.rows.filter fun row => row.id ≠ id })

def perform (tokens : Tokens) (conditions : Conditions) :
    (request : Request) → request.Reply × Tokens
  | .random => (conditions.bytes, tokens)
  | .now => (tokens.clock, tokens)
  | .select tokenHash =>
      match conditions.fault with
      | some error => (.error error, tokens)
      | none =>
          (.ok (tokens.rows.find? fun row => row.tokenHash = tokenHash), tokens)
  | .insert subject name tokenHash createdAt expiresAt =>
      match conditions.fault with
      | some error => (.error error, tokens)
      | none =>
          tokens.insert conditions.gap subject name tokenHash createdAt expiresAt
  | .touch id lastUsedAt =>
      match conditions.fault with
      | some error => (.error error, tokens)
      | none => tokens.touch id lastUsedAt
  | .delete id =>
      match conditions.fault with
      | some error => (.error error, tokens)
      | none =>
          let (affected, after) := tokens.delete id
          (.ok affected, after)

end Tokens

/-- One request, after which the clock has gone on. -/
def exec : Script.Service Request Request.Reply Conditions Tokens :=
  fun conditions tokens request =>
    let (reply, after) := tokens.perform conditions request
    (reply, { after with clock := after.clock + conditions.elapsed })

structure IssuedToken where
  id : ℤ
  token : String
  deriving DecidableEq, Repr

inductive Call where
  | issue (subject name : String) (expiresAt : Option ℤ)
  | ensure (subject name token : String) (expiresAt : Option ℤ)
  | validate (token : String)
  | revoke (id : ℤ)
  deriving DecidableEq

inductive Answer where
  | issued (result : Except AuthError IssuedToken)
  | ensured (result : Except AuthError Unit)
  | validated (result : Except AuthError AuthPrincipal)
  | revoked (result : Except AuthError Unit)

abbrev Code : Type :=
  Script Request Request.Reply Answer

section Calls

variable (secrets : Secrets)

/-- `generate_token` -/
def generateToken (bytes : List UInt8) : String :=
  "mrd_" ++ secrets.encode bytes

def issueToken (subject name : String) (expiresAt : Option ℤ) : Code :=
  .call .random fun bytes =>
    let token := generateToken secrets bytes
    match secrets.hashToken token with
    | .error error => .done (.issued (.error error))
    | .ok hash =>
        .call .now fun createdAt =>
          .call (.insert subject name hash createdAt expiresAt) fun inserted =>
            match inserted with
            | .error error => .done (.issued (.error (.database error)))
            | .ok row => .done (.issued (.ok { id := row.id, token }))

/-- The use of a token that was read is noted; an error in this is not one of
the call, unless the row is no longer there. -/
def useToken (record : Token) : Code :=
  .call .now fun lastUsedAt =>
    .call (.touch record.id lastUsedAt) fun updated =>
      match updated with
      | .error .recordNotUpdated => .done (.validated (.error .invalidToken))
      | .error (.recordNotFound _) => .done (.validated (.error .invalidToken))
      | _ => .done (.validated (.ok {
          subject := record.subject
          email := none
          preferredUsername := none
          source := .apiToken record.id }))

def validateToken (token : String) : Code :=
  match secrets.hashToken token with
  | .error error => .done (.validated (.error error))
  | .ok hash =>
      .call (.select hash) fun found =>
        match found with
        | .error error => .done (.validated (.error (.database error)))
        | .ok none => .done (.validated (.error .invalidToken))
        | .ok (some record) =>
            match record.expiresAt with
            | none => useToken record
            | some expiresAt =>
                .call .now fun now =>
                  if expiresAt ≤ now then
                    .done (.validated (.error .tokenExpired))
                  else useToken record

def revokeToken (id : ℤ) : Code :=
  .call (.delete id) fun deleted =>
    match deleted with
    | .error error => .done (.revoked (.error (.database error)))
    | .ok _ => .done (.revoked (.ok ()))

def ensureToken (subject name token : String) (expiresAt : Option ℤ) : Code :=
  match secrets.hashToken token with
  | .error error => .done (.ensured (.error error))
  | .ok hash =>
      .call (.select hash) fun found =>
        match found with
        | .error error => .done (.ensured (.error (.database error)))
        | .ok (some existing) =>
            if existing.subject ≠ subject then
              .done (.ensured (.error .tokenHashConflict))
            else .done (.ensured (.ok ()))
        | .ok none =>
            .call .now fun createdAt =>
              .call (.insert subject name hash createdAt expiresAt)
                fun inserted =>
                  match inserted with
                  | .error error => .done (.ensured (.error (.database error)))
                  | .ok _ => .done (.ensured (.ok ()))

def program : Call → Code
  | .issue subject name expiresAt => issueToken secrets subject name expiresAt
  | .ensure subject name token expiresAt =>
      ensureToken secrets subject name token expiresAt
  | .validate token => validateToken secrets token
  | .revoke id => revokeToken id

/-- Calls of any kind, one beside the other. -/
def system : System Call Request Request.Reply Conditions Tokens Answer where
  program := program secrets
  exec := exec
  ready := fun _ _ => true
  spawns := fun _ => none

@[simp]
theorem system_exec : (system secrets).exec = exec :=
  rfl

end Calls

abbrev Calls : Type :=
  Pool Call Request Request.Reply Tokens Answer

abbrev Turn : Type := Occurrence Request Request.Reply Tokens

end MiryadCore.Auth
