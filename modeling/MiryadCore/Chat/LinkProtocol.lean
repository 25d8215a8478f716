import MiryadCore.Chat.Link

/-!
# The stages of the calls on link codes

Which statement each call may ask for next, and with what it ends, whatever it
is answered.
-/

namespace MiryadCore.Chat

open Interactive

/-- The arguments of `issue_code`. -/
structure Issuer where
  caller : CallerPrincipal
  now : Instant

def Issuer.call (issuer : Issuer) : Call :=
  .issue issuer.caller issuer.now

/-- The row of a code that is drawn. -/
def Issuer.row (sha : Sha256) (issuer : Issuer) (bytes : Vector UInt8 12) :
    LinkCode :=
  { codeHash := hashCode sha (randomCode bytes)
    subject := issuer.caller.subject, expiresAt := expiry issuer.now }

/-- The arguments of `consume_code`. -/
structure Consumer where
  mxid : String
  code : String
  now : Instant

def Consumer.call (consumer : Consumer) : Call :=
  .consume consumer.mxid consumer.code consumer.now

/-- The link that the call makes on a code. -/
def Consumer.link (consumer : Consumer) (row : LinkCode) : MatrixLink :=
  { mxid := consumer.mxid, subject := row.subject, createdAt := consumer.now }

inductive Stage where
  | purging (issuer : Issuer)
  | listing (issuer : Issuer)
  | thinning (issuer : Issuer) (first : String) (pending kept : List String)
  | drawing (issuer : Issuer) (kept : List String) (left : ℕ)
  | inserting (issuer : Issuer) (kept : List String) (left : ℕ)
      (bytes : Vector UInt8 12)
  | limiting (consumer : Consumer)
  | reading (consumer : Consumer)
  | recording (consumer : Consumer)
  | opening (consumer : Consumer) (row : LinkCode)
  | owning (consumer : Consumer) (row : LinkCode) (tx : ℕ)
  | erasing (consumer : Consumer) (row : LinkCode) (tx : ℕ) (linked : Bool)
  | linking (consumer : Consumer) (row : LinkCode) (tx : ℕ)
  | committing (consumer : Consumer) (row : LinkCode) (tx : ℕ)
  | clearing (consumer : Consumer) (row : LinkCode)
  | dropping (consumer : Consumer) (tx : ℕ) (error : Option LymailleError)
  | unlinking (caller : CallerPrincipal) (mxid : String)
  | sweeping (now : Instant)
  | concluded (call : Call) (answer : Answer)

namespace Stage

/-- The codes that are left to delete before one is drawn. -/
def thin (issuer : Issuer) (kept : List String) : List String → Stage
  | [] => .drawing issuer kept 4
  | first :: pending => .thinning issuer first pending kept

/-- The draws that are left. -/
def draw (issuer : Issuer) (kept : List String) : ℕ → Stage
  | 0 => .concluded issuer.call
      (.issued (.error (.store "link code hash keeps colliding")))
  | left + 1 => .drawing issuer kept left

/-- The call ends with an error, after it has recorded a failure if it is one. -/
def refuse (consumer : Consumer) : Option LymailleError → Stage
  | some error => .concluded consumer.call (.consumed (.error error))
  | none => .recording consumer

def broken (consumer : Consumer) (text : String) : Stage :=
  .concluded consumer.call (.consumed (.error (.store text)))

/-- What the rows tell of the code. -/
def found (consumer : Consumer) : Option LinkCode → Stage
  | none => .recording consumer
  | some row =>
      if row.expiresAt ≤ consumer.now then .recording consumer
      else .opening consumer row

def allows (sha : Sha256) : Stage → Request → Prop
  | .purging issuer, .statement (.purgeExpired now) => now = issuer.now
  | .listing issuer, .statement (.liveCodes subject now) =>
      subject = issuer.caller.subject ∧ now = issuer.now
  | .thinning _ first _ _, .statement (.deleteCode codeHash) =>
      codeHash = first
  | .drawing _ _ _, .random => True
  | .inserting issuer _ _ bytes, .statement (.insertCode row) =>
      row = issuer.row sha bytes
  | .limiting _, .rateLimited _ _ => True
  | .reading _, .statement .codes => True
  | .recording _, .recordFailure _ _ => True
  | .opening _ _, .statement .begin => True
  | .owning _ _ tx, .statement (.owner other _) => other = tx
  | .erasing _ row tx _, .statement (.eraseCode other codeHash) =>
      other = tx ∧ codeHash = row.codeHash
  | .linking consumer row tx, .statement (.insertLink other link) =>
      other = tx ∧ link = consumer.link row
  | .committing _ _ tx, .statement (.commit other) => other = tx
  | .clearing _ _, .clearAttempts _ => True
  | .dropping _ tx _, .statement (.rollback other) => other = tx
  | .unlinking _ _, .statement (.deleteLink _ _) => True
  | .sweeping _, .statement (.purgeExpired _) => True
  | _, _ => False

def next (sha : Sha256) : Stage → (request : Request) → request.Reply → Stage
  | .purging issuer, .statement (.purgeExpired _), .ok _ => .listing issuer
  | .purging issuer, .statement (.purgeExpired _), .error text =>
      .concluded issuer.call (.issued (.error (.store text)))
  | .listing issuer, .statement (.liveCodes _ _), .ok rows =>
      thin issuer (rows.drop (rows.length - (MAX_LIVE_CODES - 1)))
        (rows.take (rows.length - (MAX_LIVE_CODES - 1)))
  | .listing issuer, .statement (.liveCodes _ _), .error text =>
      .concluded issuer.call (.issued (.error (.store text)))
  | .thinning issuer _ pending kept, .statement (.deleteCode _), .ok _ =>
      thin issuer kept pending
  | .thinning issuer _ _ _, .statement (.deleteCode _), .error text =>
      .concluded issuer.call (.issued (.error (.store text)))
  | .drawing issuer kept left, .random, .ok bytes =>
      .inserting issuer kept left bytes
  | .drawing issuer _ _, .random, .error text =>
      .concluded issuer.call (.issued (.error (.store text)))
  | .inserting issuer kept left bytes, .statement (.insertCode row), .ok done =>
      if done > 0 then
        .concluded issuer.call (.issued (.ok
          { code := randomCode bytes, expiresAt := row.expiresAt }))
      else draw issuer kept left
  | .inserting issuer _ _ _, .statement (.insertCode _), .error text =>
      .concluded issuer.call (.issued (.error (.store text)))
  | .limiting consumer, .rateLimited _ _, limited =>
      if limited = true then
        .concluded consumer.call (.consumed (.error (.forbidden "too many attempts")))
      else .reading consumer
  | .reading consumer, .statement .codes, .ok rows =>
      found consumer (findCode rows (hashCode sha consumer.code))
  | .reading consumer, .statement .codes, .error text => broken consumer text
  | .recording consumer, .recordFailure _ _, _ =>
      .concluded consumer.call (.consumed (.error (.forbidden INVALID_CODE)))
  | .opening consumer row, .statement .begin, .ok tx => .owning consumer row tx
  | .opening consumer _, .statement .begin, .error text => broken consumer text
  | .owning consumer row tx, .statement (.owner _ _), .ok owner =>
      if owner.any fun owner => owner ≠ row.subject then
        .dropping consumer tx (some (.conflict "mxid already linked"))
      else .erasing consumer row tx owner.isSome
  | .owning consumer _ tx, .statement (.owner _ _), .error text =>
      .dropping consumer tx (some (.store text))
  | .erasing consumer row tx linked, .statement (.eraseCode _ _), .ok consumed =>
      if consumed = 0 then .dropping consumer tx none
      else if linked then .committing consumer row tx
      else .linking consumer row tx
  | .erasing consumer _ tx _, .statement (.eraseCode _ _), .error text =>
      .dropping consumer tx (some (.store text))
  | .linking consumer row tx, .statement (.insertLink _ _), .ok _ =>
      .committing consumer row tx
  | .linking consumer _ tx, .statement (.insertLink _ _), .error text =>
      .dropping consumer tx (some (.store text))
  | .committing consumer row _, .statement (.commit _), .ok _ =>
      .clearing consumer row
  | .committing consumer _ _, .statement (.commit _), .error text =>
      broken consumer text
  | .clearing consumer row, .clearAttempts _, _ =>
      .concluded consumer.call (.consumed (.ok row.subject))
  | .dropping consumer _ error, .statement (.rollback _), _ =>
      refuse consumer error
  | .unlinking caller mxid, .statement (.deleteLink _ _), .ok done =>
      .concluded (.unlink caller mxid) (.unlinked (.ok (0 < done)))
  | .unlinking caller mxid, .statement (.deleteLink _ _), .error text =>
      .concluded (.unlink caller mxid) (.unlinked (.error (.store text)))
  | .sweeping now, .statement (.purgeExpired _), .ok purged =>
      .concluded (.purge now) (.purged (.ok purged))
  | .sweeping now, .statement (.purgeExpired _), .error text =>
      .concluded (.purge now) (.purged (.error (.store text)))
  | stage, _, _ => stage

end Stage

def protocol (sha : Sha256) :
    Protocol Call Request Request.Reply Answer Stage where
  start
    | .issue caller now => .purging { caller, now }
    | .consume mxid code now => .limiting { mxid, code, now }
    | .unlink caller mxid => .unlinking caller mxid
    | .purge now => .sweeping now
  allows := Stage.allows sha
  next := Stage.next sha
  ends call stage answer := stage = .concluded call answer

section Obeys

variable {sha : Sha256}

/-- The code of a call, from a stage of it. -/
def Follows (sha : Sha256) {α : Type} (code : Code α) (stage : Stage)
    (ends : Stage → Except LymailleError α → Prop) : Prop :=
  Script.Obeys (protocol sha) code stage ends

/-- A call is over with what its code returns. -/
def Returned (call : Call) {α : Type}
    (answer : Except LymailleError α → Answer) (stage : Stage)
    (result : Except LymailleError α) : Prop :=
  stage = .concluded call (answer result)

theorem follows_deleteCodes {issuer : Issuer} {kept : List String}
    (pending : List String) {next : Unit → Code IssuedCode}
    (after : Follows sha (next ()) (.drawing issuer kept 4)
      (Returned issuer.call .issued)) :
    Follows sha (deleteCodes pending >>= next)
      (Stage.thin issuer kept pending) (Returned issuer.call .issued) := by
  induction pending with
  | nil => exact after
  | cons first pending induction =>
      refine ⟨rfl, ?_⟩
      intro answer
      cases answer with
      | error text => rfl
      | ok _ => exact induction

theorem follows_insertNew (issuer : Issuer) (kept : List String) (left : ℕ) :
    Follows sha
      (insertNew sha issuer.caller.subject (expiry issuer.now) left)
      (Stage.draw issuer kept left) (Returned issuer.call .issued) := by
  induction left with
  | zero => rfl
  | succ left induction =>
      refine ⟨trivial, ?_⟩
      intro answer
      cases answer with
      | error text => rfl
      | ok bytes =>
          refine ⟨rfl, ?_⟩
          intro answer
          cases answer with
          | error text => rfl
          | ok done =>
              change Follows sha
                (if done > 0 then
                  (pure ⟨randomCode bytes, expiry issuer.now⟩ : Code IssuedCode)
                else insertNew sha issuer.caller.subject (expiry issuer.now)
                  left)
                (if done > 0 then .concluded issuer.call (.issued (.ok
                  ⟨randomCode bytes, expiry issuer.now⟩))
                else Stage.draw issuer kept left) _
              split
              next => rfl
              next => exact induction

theorem follows_issueCode (issuer : Issuer) :
    Follows sha (issueCode sha issuer.caller issuer.now) (.purging issuer)
      (Returned issuer.call .issued) := by
  refine ⟨rfl, ?_⟩
  intro answer
  cases answer with
  | error text => rfl
  | ok purged =>
      refine ⟨⟨rfl, rfl⟩, ?_⟩
      intro answer
      cases answer with
      | error text => rfl
      | ok rows =>
          apply follows_deleteCodes
          exact follows_insertNew issuer _ 5

theorem follows_orRollback {consumer : Consumer} {stage : Stage} {tx : ℕ}
    {statement : Statement} {next : statement.Reply → Code String}
    (allowed : (protocol sha).allows stage (.statement statement))
    (failed : ∀ text, (protocol sha).next stage (.statement statement)
      (.error text) = .dropping consumer tx (some (.store text)))
    (after : ∀ reply, Follows sha (next reply)
      ((protocol sha).next stage (.statement statement) (.ok reply))
      (Returned consumer.call .consumed)) :
    Follows sha (orRollback tx (query statement) >>= next) stage
      (Returned consumer.call .consumed) := by
  refine ⟨allowed, ?_⟩
  intro answer
  cases answer with
  | ok reply => exact after reply
  | error text =>
      rw [failed text]
      refine ⟨rfl, ?_⟩
      intro answer
      cases answer with
      | ok _ => rfl
      | error _ => rfl

theorem follows_invalidCode (consumer : Consumer) :
    Follows sha (invalidCode consumer.mxid consumer.now) (.recording consumer)
      (Returned consumer.call .consumed) :=
  ⟨trivial, fun _ => rfl⟩

theorem follows_dropTx {consumer : Consumer} {tx : ℕ} {refusal : Code String}
    {error : Option LymailleError}
    (after : Follows sha refusal (Stage.refuse consumer error)
      (Returned consumer.call .consumed)) :
    Follows sha (dropTx tx refusal) (.dropping consumer tx error)
      (Returned consumer.call .consumed) := by
  refine ⟨rfl, ?_⟩
  intro answer
  cases answer with
  | ok _ => exact after
  | error _ => exact after

theorem follows_commit (consumer : Consumer) (row : LinkCode) (tx : ℕ) :
    Follows sha
      (query (.commit tx) >>= fun _ =>
        get (.clearAttempts consumer.mxid) >>= fun _ =>
          (pure row.subject : Code String))
      (.committing consumer row tx) (Returned consumer.call .consumed) := by
  refine ⟨rfl, ?_⟩
  intro answer
  cases answer with
  | error text => rfl
  | ok _ => exact ⟨trivial, fun _ => rfl⟩

theorem follows_consumeRow (consumer : Consumer) (row : LinkCode) :
    Follows sha (consumeRow consumer.mxid row consumer.now)
      (.opening consumer row) (Returned consumer.call .consumed) := by
  refine ⟨trivial, ?_⟩
  intro answer
  cases answer with
  | error text => rfl
  | ok tx =>
  refine follows_orRollback ?_ (fun _ => rfl) ?_
  · rfl
  intro owner
  change Follows sha (if _ then _ else _) (if _ then _ else _) _
  split
  next => exact follows_dropTx rfl
  next =>
  refine follows_orRollback ?_ (fun _ => rfl) ?_
  · exact ⟨rfl, rfl⟩
  intro consumed
  change Follows sha (if _ then _ else _) (if _ then _ else if _ then _ else _) _
  split
  next => exact follows_dropTx (follows_invalidCode consumer)
  next =>
  cases owner with
  | some owner => exact follows_commit consumer row tx
  | none =>
      refine follows_orRollback ?_ (fun _ => rfl) ?_
      · exact ⟨rfl, rfl⟩
      intro _
      exact follows_commit consumer row tx

theorem follows_consumeCode (consumer : Consumer) :
    Follows sha (consumeCode sha consumer.mxid consumer.code consumer.now)
      (.limiting consumer) (Returned consumer.call .consumed) := by
  refine ⟨trivial, ?_⟩
  intro limited
  change Follows sha (if limited = true then _ else _)
    (if limited = true then _ else _) _
  split
  next => rfl
  next =>
  refine ⟨trivial, ?_⟩
  intro answer
  cases answer with
  | error text => rfl
  | ok rows =>
  change Follows sha (match findCode rows (hashCode sha consumer.code) with
    | none => _
    | some row => _) (Stage.found consumer _) _
  cases findCode rows (hashCode sha consumer.code) with
  | none => exact follows_invalidCode consumer
  | some row =>
      unfold Stage.found
      dsimp only
      split
      next => exact follows_invalidCode consumer
      next => exact follows_consumeRow consumer row

theorem follows_program (sha : Sha256) (call : Call) :
    (program sha call).Obeys (protocol sha) ((protocol sha).start call)
      ((protocol sha).ends call) := by
  have answering : ∀ {α : Type} {code : Code α} {stage : Stage}
      {answer : Except LymailleError α → Answer},
      Follows sha code stage (Returned call answer) →
      Script.Obeys (protocol sha)
        (Script.bind code fun result => .done (answer result)) stage
        ((protocol sha).ends call) := by
    intro α code stage answer follows
    apply Script.Obeys.bind
    exact follows
  cases call with
  | issue caller now =>
      exact answering (follows_issueCode { caller, now })
  | consume mxid code now =>
      exact answering (follows_consumeCode { mxid, code, now })
  | unlink caller mxid =>
      apply answering
      refine ⟨trivial, ?_⟩
      intro answer
      cases answer with
      | ok _ => rfl
      | error _ => rfl
  | purge now =>
      apply answering
      refine ⟨trivial, ?_⟩
      intro answer
      cases answer with
      | ok _ => rfl
      | error _ => rfl

end Obeys

end MiryadCore.Chat
