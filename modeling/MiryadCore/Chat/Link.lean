import Mathlib.Algebra.Group.Nat.Defs
import Mathlib.Data.List.AList
import Mathlib.Data.List.Sort
import MiryadCore.Control.Pool
import MiryadCore.Interactive.Identity

/-!
# Linking a Matrix identifier by a one-time code

A user asks for a code, and presents it from a Matrix account, which is then
linked to the subject of the user.  Only the digest of a code is stored.  The
statements of the calls run one at a time; what the transaction of a call has
written is not seen by the others before its commit, and they wait for its end
where they would touch it.  An instant is in nanoseconds since the epoch.
-/

namespace MiryadCore.Chat

open Interactive

abbrev Instant := ℤ

/-- `CODE_TTL`, in seconds. -/
def CODE_TTL : ℤ := 600

def MAX_LIVE_CODES : ℕ := 3

def CODE_ALPHABET : List Char :=
  "23456789ABCDEFGHJKLMNPQRSTUVWXYZ".toList

def INVALID_CODE : String := "invalid or expired link code"

def ATTEMPT_LIMIT : ℕ := 5

/-- `ATTEMPT_WINDOW`, in seconds. -/
def ATTEMPT_WINDOW : ℤ := 600

def nanosPerSecond : ℤ := 1000000000

/-- `DateTime::<Utc>::MAX_UTC`. -/
def maxUtc : Instant := 8210266876799 * nanosPerSecond + 999999999

/-- `random_code`, from the bytes that the source of entropy gives. -/
def randomCode (bytes : Vector UInt8 12) : String :=
  String.ofList (bytes.toList.map fun byte =>
    (CODE_ALPHABET[byte.toNat % CODE_ALPHABET.length]?).getD '2')

/-- SHA-256 of the text of a code, which tells the generated codes apart. -/
structure Sha256 where
  digest : String → List UInt8
  distinct : ∀ {bytes others : Vector UInt8 12},
    digest (randomCode bytes) = digest (randomCode others) →
      randomCode bytes = randomCode others

/-- Two lower-case hexadecimal digits. -/
def hexByte (byte : UInt8) : List Char :=
  [Nat.digitChar (byte.toNat / 16), Nat.digitChar (byte.toNat % 16)]

/-- `hash_code`. -/
def hashCode (sha : Sha256) (code : String) : String :=
  String.ofList ((sha.digest code).flatMap hexByte)

structure IssuedCode where
  code : String
  expiresAt : Instant
  deriving DecidableEq, Repr

/-- A row of `matrix_link_codes`, whose key is the hash. -/
structure LinkCode where
  codeHash : String
  subject : String
  expiresAt : Instant
  deriving DecidableEq, Repr

/-- A row of `matrix_links`, whose key is the Matrix identifier. -/
structure MatrixLink where
  mxid : String
  subject : String
  createdAt : Instant
  deriving DecidableEq, Repr

/-- What an open transaction has done. -/
inductive Change where
  | erased (codeHash : String)
  | linked (link : MatrixLink)
  deriving DecidableEq, Repr

structure Write where
  tx : ℕ
  change : Change
  deriving DecidableEq, Repr

/-- The committed rows, what the open transactions have done, and the failed
attempts of each Matrix identifier, which the process keeps in memory. -/
structure Directory where
  codes : List LinkCode
  links : List MatrixLink
  writes : List Write
  transactions : ℕ
  attempts : AList fun _ : String => ℕ × Instant

namespace Directory

def empty : Directory :=
  { codes := [], links := [], writes := [], transactions := 0, attempts := ∅ }

/-- The live codes of a subject. -/
def live (s : Directory) (subject : String) (now : Instant) : List LinkCode :=
  s.codes.filter fun row => row.subject = subject ∧ now < row.expiresAt

/-- A transaction other than `tx` has erased the code. -/
def erasing (s : Directory) (tx : Option ℕ) (codeHash : String) : Bool :=
  s.writes.any fun write =>
    write.change = .erased codeHash && some write.tx ≠ tx

/-- A transaction other than `tx` has linked the Matrix identifier. -/
def linking (s : Directory) (tx : ℕ) (mxid : String) : Bool :=
  s.writes.any fun write =>
    match write.change with
    | .linked link => link.mxid = mxid && write.tx ≠ tx
    | .erased _ => false

/-- The links that a transaction has inserted. -/
def inserted (s : Directory) (tx : ℕ) : List MatrixLink :=
  s.writes.filterMap fun write =>
    match write.change with
    | .linked link => if write.tx = tx then some link else none
    | .erased _ => none

def write (s : Directory) (tx : ℕ) (change : Change) : Directory :=
  { s with writes := { tx, change } :: s.writes }

def rollback (s : Directory) (tx : ℕ) : Directory :=
  { s with writes := s.writes.filter fun write => write.tx ≠ tx }

def commit (s : Directory) (tx : ℕ) : Directory :=
  { s.rollback tx with
    codes := s.codes.filter fun row =>
      { tx, change := .erased row.codeHash } ∉ s.writes
    links := s.links ++ s.inserted tx }

/-- `num_seconds` of the time since an instant. -/
def secondsSince (now start : Instant) : ℤ :=
  (now - start).tdiv nanosPerSecond

/-- `rate_limited`. -/
def rateLimited (s : Directory) (mxid : String) (now : Instant) : Bool :=
  match s.attempts.lookup mxid with
  | some (count, windowStart) =>
      secondsSince now windowStart < ATTEMPT_WINDOW && ATTEMPT_LIMIT ≤ count
  | none => false

/-- `record_failure`: the count is an `u32` that saturates. -/
def recordFailure (s : Directory) (mxid : String) (now : Instant) : Directory :=
  let (count, windowStart) := (s.attempts.lookup mxid).getD (0, now)
  let entry :=
    if secondsSince now windowStart < ATTEMPT_WINDOW then
      (min (count + 1) (2 ^ 32 - 1), windowStart)
    else (1, now)
  { s with attempts := s.attempts.insert mxid entry }

/-- `clear_attempts`. -/
def clearAttempts (s : Directory) (mxid : String) : Directory :=
  { s with attempts := s.attempts.erase mxid }

end Directory

inductive Statement where
  | purgeExpired (now : Instant)
  | liveCodes (subject : String) (now : Instant)
  | deleteCode (codeHash : String)
  | insertCode (row : LinkCode)
  | codes
  | begin
  | owner (tx : ℕ) (mxid : String)
  | eraseCode (tx : ℕ) (codeHash : String)
  | insertLink (tx : ℕ) (link : MatrixLink)
  | commit (tx : ℕ)
  | rollback (tx : ℕ)
  | deleteLink (mxid subject : String)
  deriving DecidableEq, Repr

@[reducible]
def Statement.Reply : Statement → Type
  | .purgeExpired _ => ℕ
  | .liveCodes _ _ => List String
  | .deleteCode _ => Unit
  | .insertCode _ => ℕ
  | .codes => List LinkCode
  | .begin => ℕ
  | .owner _ _ => Option String
  | .eraseCode _ _ => ℕ
  | .insertLink _ _ => Unit
  | .commit _ => Unit
  | .rollback _ => Unit
  | .deleteLink _ _ => ℕ

/-- A statement, or a request to the process: the counter, the entropy. -/
inductive Request where
  | statement (statement : Statement)
  | random
  | rateLimited (mxid : String) (now : Instant)
  | recordFailure (mxid : String) (now : Instant)
  | clearAttempts (mxid : String)
  deriving DecidableEq, Repr

@[reducible]
def Request.Reply : Request → Type
  | .statement asked => Except String asked.Reply
  | .random => Except String (Vector UInt8 12)
  | .rateLimited _ _ => Bool
  | .recordFailure _ _ => Unit
  | .clearAttempts _ => Unit

/-- What the database and the system decide. -/
structure Conditions where
  fault : Option String := none
  bytes : Vector UInt8 12 := Vector.replicate 12 0

namespace Directory

/-- The effect of a statement that the database accepts. -/
def perform (s : Directory) :
    (statement : Statement) → Except String (statement.Reply × Directory)
  | .purgeExpired now =>
      .ok ((s.codes.filter fun row => row.expiresAt ≤ now).length,
        { s with codes := s.codes.filter fun row => now < row.expiresAt })
  | .liveCodes subject now =>
      .ok (((s.live subject now).insertionSort fun one other =>
          one.expiresAt ≤ other.expiresAt).map LinkCode.codeHash, s)
  | .deleteCode codeHash =>
      .ok ((), { s with
        codes := s.codes.filter fun row => row.codeHash ≠ codeHash })
  | .insertCode row =>
      if row.codeHash ∈ s.codes.map LinkCode.codeHash then .ok (0, s)
      else .ok (1, { s with codes := s.codes ++ [row] })
  | .codes => .ok (s.codes, s)
  | .begin => .ok (s.transactions, { s with transactions := s.transactions + 1 })
  | .owner tx mxid =>
      .ok (((s.inserted tx ++ s.links).find? fun link => link.mxid = mxid).map
        MatrixLink.subject, s)
  | .eraseCode tx codeHash =>
      if codeHash ∈ s.codes.map LinkCode.codeHash ∧
          { tx, change := .erased codeHash } ∉ s.writes then
        .ok (1, s.write tx (.erased codeHash))
      else .ok (0, s)
  | .insertLink tx link =>
      if link.mxid ∈ (s.inserted tx ++ s.links).map MatrixLink.mxid then
        .error "unique violation"
      else .ok ((), s.write tx (.linked link))
  | .commit tx => .ok ((), s.commit tx)
  | .rollback tx => .ok ((), s.rollback tx)
  | .deleteLink mxid subject =>
      .ok ((s.links.filter fun link =>
          link.mxid = mxid ∧ link.subject = subject).length,
        { s with links := s.links.filter fun link =>
          ¬(link.mxid = mxid ∧ link.subject = subject) })

/-- A statement that fails changes nothing; a transaction whose commit fails is
rolled back, and one that is dropped is, whatever happens. -/
def fail (s : Directory) : Statement → Directory
  | .commit tx => s.rollback tx
  | .rollback tx => s.rollback tx
  | _ => s

end Directory

def exec : Script.Service Request Request.Reply Conditions Directory
  | conditions, s, .statement statement =>
      match conditions.fault with
      | some text => (.error text, s.fail statement)
      | none =>
          match s.perform statement with
          | .error text => (.error text, s)
          | .ok (reply, after) => (.ok reply, after)
  | conditions, s, .random =>
      match conditions.fault with
      | some text => (.error text, s)
      | none => (.ok conditions.bytes, s)
  | _, s, .rateLimited mxid now => (s.rateLimited mxid now, s)
  | _, s, .recordFailure mxid now => ((), s.recordFailure mxid now)
  | _, s, .clearAttempts mxid => ((), s.clearAttempts mxid)

/-- A statement on a row that another transaction has written waits. -/
def ready (s : Directory) : Request → Bool
  | .statement (.purgeExpired now) =>
      s.codes.all fun row => now < row.expiresAt || !s.erasing none row.codeHash
  | .statement (.deleteCode codeHash) => !s.erasing none codeHash
  | .statement (.insertCode row) => !s.erasing none row.codeHash
  | .statement (.eraseCode tx codeHash) => !s.erasing (some tx) codeHash
  | .statement (.insertLink tx link) => !s.linking tx link.mxid
  | _ => true

abbrev Code (α : Type) : Type := Query Request Request.Reply LymailleError α

def query (statement : Statement) : Code statement.Reply :=
  Script.call (.statement statement) fun answer => .done (answer.mapError .store)

def entropy : Code (Vector UInt8 12) :=
  Script.call .random fun answer => .done (answer.mapError .store)

/-- A request to the process, which cannot fail. -/
def get (request : Request) : Code request.Reply :=
  Script.call request fun answer => .done (.ok answer)

/-- `purge_expired`. -/
def purgeExpired (now : Instant) : Code ℕ :=
  query (.purgeExpired now)

/-- The oldest codes give way, one at a time. -/
def deleteCodes : List String → Code Unit
  | [] => pure ()
  | codeHash :: rest => do
      query (.deleteCode codeHash)
      deleteCodes rest

/-- The loop that draws a code until one is inserted. -/
def insertNew (sha : Sha256) (subject : String) (expiresAt : Instant) :
    ℕ → Code IssuedCode
  | 0 => Query.fail (.store "link code hash keeps colliding")
  | left + 1 => do
      let bytes ← entropy
      let code := randomCode bytes
      let done ← query
        (.insertCode { codeHash := hashCode sha code, subject, expiresAt })
      if done > 0 then return { code, expiresAt }
      else insertNew sha subject expiresAt left

/-- `now.checked_add_signed(…).unwrap_or(now)`. -/
def expiry (now : Instant) : Instant :=
  if now + CODE_TTL * nanosPerSecond ≤ maxUtc then
    now + CODE_TTL * nanosPerSecond
  else now

/-- `issue_code`. -/
def issueCode (sha : Sha256) (caller : CallerPrincipal) (now : Instant) :
    Code IssuedCode := do
  let _ ← purgeExpired now
  let rows ← query (.liveCodes caller.subject now)
  deleteCodes (rows.take (rows.length - (MAX_LIVE_CODES - 1)))
  insertNew sha caller.subject (expiry now) 5

/-- The `?` in a transaction, which is dropped on the way out. -/
def orRollback {α : Type} (tx : ℕ) (code : Code α) : Code α := do
  match ← code.attempt with
  | .ok value => return value
  | .error error =>
      let _ ← (query (.rollback tx)).attempt
      Query.fail error

/-- `drop(tx)`, then the error. -/
def dropTx {α : Type} (tx : ℕ) (refusal : Code α) : Code α := do
  let _ ← (query (.rollback tx)).attempt
  refusal

def invalidCode {α : Type} (mxid : String) (now : Instant) : Code α := do
  get (.recordFailure mxid now)
  Query.fail (.forbidden INVALID_CODE)

/-- The row of a hash among all, the last one if there were several. -/
def findCode (rows : List LinkCode) (target : String) : Option LinkCode :=
  rows.foldl
    (fun found row => if row.codeHash = target then some row else found) none

/-- The transaction of `consume_code`. -/
def consumeRow (mxid : String) (row : LinkCode) (now : Instant) :
    Code String := do
  let tx ← query .begin
  let owner ← orRollback tx (query (.owner tx mxid))
  if owner.any fun owner => owner ≠ row.subject then
    dropTx tx (Query.fail (.conflict "mxid already linked"))
  else
    let consumed ← orRollback tx (query (.eraseCode tx row.codeHash))
    if consumed = 0 then dropTx tx (invalidCode mxid now)
    else
      if owner.isNone then
        orRollback tx (query
          (.insertLink tx { mxid, subject := row.subject, createdAt := now }))
      query (.commit tx)
      get (.clearAttempts mxid)
      return row.subject

/-- `consume_code`. -/
def consumeCode (sha : Sha256) (mxid code : String) (now : Instant) :
    Code String := do
  if ← get (.rateLimited mxid now) then
    Query.fail (.forbidden "too many attempts")
  else
    let rows ← query .codes
    match findCode rows (hashCode sha code) with
    | none => invalidCode mxid now
    | some row =>
        if row.expiresAt ≤ now then invalidCode mxid now
        else consumeRow mxid row now

/-- `unlink`. -/
def unlink (caller : CallerPrincipal) (mxid : String) : Code Bool := do
  let done ← query (.deleteLink mxid caller.subject)
  return 0 < done

inductive Call where
  | issue (caller : CallerPrincipal) (now : Instant)
  | consume (mxid code : String) (now : Instant)
  | unlink (caller : CallerPrincipal) (mxid : String)
  | purge (now : Instant)
  deriving DecidableEq, Repr

inductive Answer where
  | issued (result : Except LymailleError IssuedCode)
  | consumed (result : Except LymailleError String)
  | unlinked (result : Except LymailleError Bool)
  | purged (result : Except LymailleError ℕ)
  deriving DecidableEq

def program (sha : Sha256) : Call → Script Request Request.Reply Answer
  | .issue caller now =>
      Script.bind (issueCode sha caller now) fun result =>
        .done (.issued result)
  | .consume mxid code now =>
      Script.bind (consumeCode sha mxid code now) fun result =>
        .done (.consumed result)
  | .unlink caller mxid =>
      Script.bind (Chat.unlink caller mxid) fun result =>
        .done (.unlinked result)
  | .purge now =>
      Script.bind (purgeExpired now) fun result => .done (.purged result)

/-- Calls beside each other, a statement at a time. -/
def system (sha : Sha256) :
    System Call Request Request.Reply Conditions Directory Answer where
  program := program sha
  exec := exec
  ready := ready
  spawns _ := none

end MiryadCore.Chat
