import MiryadCore.Control.History
import MiryadCore.Matrix.CryptoChanges

/-!
# Saves and marks of inbound sessions beside each other

A save writes the sessions that it is given.  A mark reads the sealed pickles
and writes them back with another flag, in a second statement.
-/

namespace MiryadCore.Matrix.Crypto

open Columns
open Users (DbErr)

variable {Content Sealed : Type}

/-- The calls that write inbound group sessions. -/
inductive BackupCall (Content : Type) where
  | saveInboundGroupSessions (sessions : List (InboundGroupSession Content))
    (backedUpToVersion : Option String)
  | saveChanges (changes : Changes Content)
  | mark (roomAndSessionIds : List (String × String))
  | reset

/-- Whether the call writes back what it has read. -/
def BackupCall.marks : BackupCall Content → Bool
  | .mark _ => true
  | .reset => true
  | _ => false

abbrev BackupTurn (Sealed : Type) : Type :=
  Occurrence (Request Sealed) Answer (Database Sealed)

namespace CryptoStore

variable (store : CryptoStore Content Sealed)

def backupProgram (sdk : Sdk Content) :
    BackupCall Content → StoreCode Sealed Unit
  | .saveInboundGroupSessions sessions version =>
      store.saveInboundGroupSessions sessions version
  | .saveChanges changes => store.saveChanges sdk changes
  | .mark ids => store.markInboundGroupSessionsAsBackedUp ids
  | .reset => store.resetBackupState

/-- The calls on the store of one account. -/
def backups [DecidableEq Sealed] (sdk : Sdk Content) :
    System (BackupCall Content) (Request Sealed) Answer (Circumstances Sealed)
      (Database Sealed) (Except StoreError Unit) where
  program := store.backupProgram sdk
  exec := serve
  ready := fun _ _ => true
  spawns := fun _ => none

/-- The pickle that is sealed in a row. -/
def pickleOf (row : Row (Value Sealed)) : Option (InboundPickle Content) :=
  match row "payload" with
  | some (.blob sealed) => (store.openInbound sealed).toOption
  | _ => none

def contentOf (row : Row (Value Sealed)) : Option Content :=
  (store.pickleOf row).map InboundPickle.content

/-- The row that a save has written, with its transaction and the content of
its pickle. -/
def saves : BackupTurn Sealed → Option (ℕ × Key (Value Sealed) × Content)
  | ⟨_, _, .execute tx (.upsert table columns values _ _), .ok _⟩ =>
      if table = INBOUND_TABLE then
        (brought schema table columns values).bind fun (key, row) =>
          (store.contentOf row).map fun content => (tx, (table, key), content)
      else none
  | _ => none

/-- The last save of a row in a transaction. -/
def savedBy [DecidableEq Sealed] (tx : ℕ) (key : Key (Value Sealed)) :
    List (BackupTurn Sealed) → Option Content
  | [] => none
  | turn :: earlier =>
      match store.saves turn with
      | some (other, saved, content) =>
          if other = tx ∧ saved = key then some content
          else savedBy tx key earlier
      | none => savedBy tx key earlier

end CryptoStore

/-- The transaction that has committed. -/
def commits : BackupTurn Sealed → Option ℕ
  | ⟨_, _, .commit tx, .ok _⟩ => some tx
  | _ => none

/-- The row that a mark writes back. -/
def writesBack : BackupTurn Sealed → Option (Key (Value Sealed))
  | ⟨_, _, .execute _ (.update table _ conds), .ok _⟩ =>
      some (table, conds.map Prod.snd)
  | _ => none

/-- The turn reads rows. -/
def reads : BackupTurn Sealed → Bool
  | ⟨_, _, .select _ _, .ok _⟩ => true
  | _ => false

namespace CryptoStore

section Conditions

variable [DecidableEq Sealed] (store : CryptoStore Content Sealed)

/-- The save of a row that was the last to be committed. -/
def lastSave (key : Key (Value Sealed)) :
    List (BackupTurn Sealed) → Option Content
  | [] => none
  | turn :: earlier =>
      match commits turn with
      | some tx => (store.savedBy tx key earlier).or (lastSave key earlier)
      | none => lastSave key earlier

/-- A save of the row has been committed since the task has read rows. -/
def overtaken (task : ℕ) (key : Key (Value Sealed)) :
    List (BackupTurn Sealed) → Bool
  | [] => false
  | turn :: earlier =>
      if turn.task = task ∧ reads turn = true then false
      else
        ((commits turn).any fun tx => (store.savedBy tx key earlier).isSome) ||
          overtaken task key earlier

/-- No save of a row that is written back has been committed since the row was
read. -/
def Unmoved (earlier : List (BackupTurn Sealed)) (turn : BackupTurn Sealed) :
    Prop :=
  ∀ key, writesBack turn = some key →
    store.overtaken turn.task key earlier = false

/-- The flag in the column of a row is that of its pickle. -/
def FlagAgrees (row : Row (Value Sealed)) : Prop :=
  ∃ pickle, store.pickleOf row = some pickle ∧
    row "backed_up" = some (.flag pickle.backedUp)

/-- The rows of the inbound sessions, all with the flag of their pickles. -/
def FlagsAgree (database : Database Sealed) : Prop :=
  ∀ key row, database.rows.lookup (INBOUND_TABLE, key) = some row →
    store.FlagAgrees row

/-- Each session has the content that was saved last. -/
def ContentsAgree (database : Database Sealed)
    (trace : List (BackupTurn Sealed)) : Prop :=
  ∀ key, (database.rows.lookup (INBOUND_TABLE, key)).bind store.contentOf =
    store.lastSave (INBOUND_TABLE, key) trace

end Conditions

end CryptoStore

/-- A call that writes back has the rows that it has read last. -/
inductive BackupStage (Sealed : Type) where
  | idle (marks : Bool)
  | saving (tx : ℕ)
  | marking (tx : ℕ) (rows : List (Row (Value Sealed)))
  | concluded

/-- The transaction that the task has open. -/
def BackupStage.tx : BackupStage Sealed → Option ℕ
  | .saving tx => some tx
  | .marking tx _ => some tx
  | _ => none

namespace CryptoStore

variable (store : CryptoStore Content Sealed)

/-- The statement saves a session. -/
def Saves (statement : Statement (Value Sealed)) : Prop :=
  ∃ session backedUp sealed,
    store.cipher.encryptValue (.inbound { session.pickle with backedUp }) =
      .ok sealed ∧
    statement = store.inboundUpsert session backedUp sealed

/-- The statement writes a row back with a flag. -/
def Marks (row : Row (Value Sealed)) (statement : Statement (Value Sealed)) :
    Prop :=
  ∃ roomId sessionId sealed pickle backedUp resealed,
    row "room_id" = some (.text roomId) ∧
    row "session_id" = some (.text sessionId) ∧
    row "payload" = some (.blob sealed) ∧
    store.openInbound sealed = .ok pickle ∧
    store.cipher.encryptValue (.inbound { pickle with backedUp }) =
      .ok resealed ∧
    statement = .update INBOUND_TABLE
      [("backed_up", .flag backedUp), ("payload", .blob resealed)]
      [("account_key", store.account), ("room_id", .text roomId),
        ("session_id", .text sessionId)]

def backupProtocol :
    Protocol (BackupCall Content) (Request Sealed) Answer
      (Except StoreError Unit) (BackupStage Sealed) where
  start call := .idle call.marks
  allows
    | .idle _, .begin => True
    | .saving tx, .execute other statement =>
        other = tx ∧
          (statement.table ≠ INBOUND_TABLE ∨ store.Saves statement)
    | .saving tx, .maximum other _ _ _ => other = tx
    | .marking tx rows, .execute other statement =>
        other = tx ∧ ∃ row ∈ rows, store.Marks row statement
    | .marking tx _, .select other selection =>
        other = some tx ∧ ∃ conds,
          selection = store.scopedSelect INBOUND_TABLE MARK_COLUMNS conds
    | .saving tx, .commit other => other = tx
    | .saving tx, .rollback other => other = tx
    | .marking tx _, .commit other => other = tx
    | .marking tx _, .rollback other => other = tx
    | _, _ => False
  next
    | .idle marks, .begin, .ok tx =>
        if marks then .marking tx [] else .saving tx
    | .idle _, .begin, .error _ => .concluded
    | .marking tx _, .select _ _, .ok rows => .marking tx rows
    | _, .commit _, _ => .concluded
    | _, .rollback _, _ => .concluded
    | stage, _, _ => stage
  ends := fun _ _ _ => True

section Obeys

variable {store : CryptoStore Content Sealed} {tx : ℕ}

/-- The statements of a transaction keep to it, whether it saves or marks. -/
theorem obeys_transaction {marks : Bool}
    (inside : ℕ → BackupStage Sealed → Prop)
    {body : ℕ → StoreCode Sealed Unit}
    (begins : ∀ tx, inside tx (if marks then .marking tx [] else .saving tx))
    (held : ∀ tx stage, inside tx stage →
      stage = .saving tx ∨ ∃ rows, stage = .marking tx rows)
    (stays : ∀ tx, Query.Stays store.backupProtocol (inside tx) (body tx)) :
    (transaction body).Obeys store.backupProtocol (.idle marks)
      fun _ _ => True := by
  refine ⟨trivial, ?_⟩
  intro answer
  cases answer with
  | error error => trivial
  | ok tx =>
      have goes : (Script.bind (body tx) (finish tx)).Obeys
          store.backupProtocol (if marks then .marking tx [] else .saving tx)
          fun _ _ => True := by
        apply Script.Obeys.bind
        apply (stays tx _ (begins tx)).mono
        intro stage result after
        rcases held tx stage after with saving | marking
        · subst saving
          cases result with
          | ok value => exact ⟨rfl, fun _ => trivial⟩
          | error error => exact ⟨rfl, fun _ => trivial⟩
        · obtain ⟨rows, rfl⟩ := marking
          cases result with
          | ok value => exact ⟨rfl, fun _ => trivial⟩
          | error error => exact ⟨rfl, fun _ => trivial⟩
      exact goes

/-- The statements of a save stay in its transaction. -/
abbrev StaysSaving {α : Type} (store : CryptoStore Content Sealed) (tx : ℕ)
    (code : StoreCode Sealed α) : Prop :=
  Query.Stays store.backupProtocol (· = .saving tx) code

theorem stays_execute {statement : Statement (Value Sealed)}
    (allowed : statement.table ≠ INBOUND_TABLE ∨ store.Saves statement) :
    StaysSaving store tx (execute tx statement) := by
  apply Query.Stays.askWith
  · intro stage saving
    subst saving
    exact ⟨rfl, allowed⟩
  · intro stage answer saving
    subst saving
    rfl

theorem stays_other {statement : Statement (Value Sealed)}
    (other : statement.table ≠ INBOUND_TABLE) :
    StaysSaving store tx (execute tx statement) :=
  stays_execute (Or.inl other)

theorem stays_sealed {plain : Plain Content}
    {statement : Sealed → Statement (Value Sealed)}
    (other : ∀ sealed, (statement sealed).table ≠ INBOUND_TABLE) :
    StaysSaving store tx
      (store.sealed plain >>= fun sealed => execute tx (statement sealed)) := by
  apply Query.Stays.bind_done
  intro sealed _
  exact stays_other (other sealed)

theorem stays_upsert {plain : Plain Content} {table : String}
    {columns primaryKey : List String} {values : Sealed → List (Value Sealed)}
    (other : table ≠ INBOUND_TABLE) :
    StaysSaving store tx (store.sealed plain >>= fun sealed =>
      execute tx (upsert table columns (values sealed) primaryKey)) :=
  stays_sealed fun _ => other

theorem stays_upsertInbound (session : InboundGroupSession Content)
    (backedUp : Bool) :
    StaysSaving store tx (store.upsertInbound tx session backedUp) := by
  apply Query.Stays.bind_done
  intro sealed is
  exact stays_execute (Or.inr ⟨session, backedUp, sealed, is, rfl⟩)

theorem stays_putOptional (key : String) (value : Option (Plain Content)) :
    StaysSaving store tx (store.putOptional tx key value) := by
  cases value with
  | none => exact Query.Stays.pure ()
  | some value =>
      apply stays_sealed
      intro sealed
      show KV_TABLE ≠ INBOUND_TABLE
      decide

theorem stays_applyAccount (changes : Changes Content) :
    StaysSaving store tx (store.applyAccount tx changes) := by
  apply Query.Stays.bind (stays_putOptional _ _)
  intro _
  apply Query.Stays.bind (stays_putOptional _ _)
  intro _
  apply Query.Stays.bind (stays_putOptional _ _)
  intro _
  apply Query.Stays.bind (stays_putOptional _ _)
  intro _
  exact stays_putOptional _ _

theorem stays_applySessions (changes : Changes Content) :
    StaysSaving store tx (store.applySessions tx changes) := by
  apply Query.Stays.bind
  · apply Query.Stays.forM
    intro session _
    apply stays_upsert
    decide
  intro _
  apply Query.Stays.bind
  · apply Query.Stays.forM
    intro session _
    exact stays_upsertInbound session _
  intro _
  apply Query.Stays.bind
  · apply Query.Stays.forM
    intro session _
    apply stays_upsert
    decide
  intro _
  apply Query.Stays.forM
  intro entries _
  apply Query.Stays.forM
  intro entry _
  apply stays_upsert
  decide

theorem stays_nextSecretSeq (secretHash : Value Sealed) :
    StaysSaving store tx (store.nextSecretSeq tx secretHash) := by
  apply Query.Stays.bind
  · apply Query.Stays.askWith
    · intro stage saving
      subst saving
      rfl
    · intro stage answer saving
      subst saving
      rfl
  intro max
  cases max with
  | none => exact Query.Stays.pure 0
  | some max =>
      dsimp only
      split
      next => exact Query.Stays.pure _
      next => exact Query.Stays.done _

theorem stays_applyHashesAndRequests (changes : Changes Content) :
    StaysSaving store tx (store.applyHashesAndRequests tx changes) := by
  apply Query.Stays.bind
  · apply Query.Stays.forM
    intro hash _
    apply stays_other
    show MESSAGE_HASHES_TABLE ≠ INBOUND_TABLE
    decide
  intro _
  apply Query.Stays.forM
  intro request _
  apply stays_upsert
  decide

theorem stays_applyIdentitiesAndDevices (changes : Changes Content) :
    StaysSaving store tx (store.applyIdentitiesAndDevices tx changes) := by
  apply Query.Stays.bind
  · apply Query.Stays.forM
    intro identity _
    apply stays_upsert
    decide
  intro _
  apply Query.Stays.bind
  · apply Query.Stays.forM
    intro device _
    apply stays_upsert
    decide
  intro _
  apply Query.Stays.forM
  intro device _
  apply stays_other
  show DEVICES_TABLE ≠ INBOUND_TABLE
  decide

theorem stays_applyRoomSettingsAndSecrets (changes : Changes Content) :
    StaysSaving store tx (store.applyRoomSettingsAndSecrets tx changes) := by
  apply Query.Stays.bind
  · apply Query.Stays.forM
    intro settings _
    apply stays_upsert
    decide
  intro _
  apply Query.Stays.forM
  intro item _
  apply Query.Stays.bind (stays_nextSecretSeq _)
  intro seq
  apply stays_sealed
  intro sealed
  show SECRETS_INBOX_TABLE ≠ INBOUND_TABLE
  decide

theorem stays_applyRoomKeyBundles (changes : Changes Content) :
    StaysSaving store tx (store.applyRoomKeyBundles tx changes) := by
  apply Query.Stays.bind
  · apply Query.Stays.forM
    intro bundle _
    apply stays_upsert
    decide
  intro _
  apply Query.Stays.bind
  · apply Query.Stays.forM
    intro roomId _
    apply stays_other
    show ROOM_KEYS_DOWNLOADED_TABLE ≠ INBOUND_TABLE
    decide
  intro _
  apply Query.Stays.forM
  intro details _
  obtain ⟨roomId, details⟩ := details
  cases details with
  | none =>
      apply stays_other
      show PENDING_BUNDLES_TABLE ≠ INBOUND_TABLE
      decide
  | some details =>
      apply stays_upsert
      decide

theorem stays_applyDevices (changes : Changes Content) :
    StaysSaving store tx (store.applyDevices tx changes) := by
  apply Query.Stays.bind (stays_applyHashesAndRequests changes)
  intro _
  apply Query.Stays.bind (stays_applyIdentitiesAndDevices changes)
  intro _
  apply Query.Stays.bind (stays_applyRoomSettingsAndSecrets changes)
  intro _
  exact stays_applyRoomKeyBundles changes

theorem obeys_save {body : ℕ → StoreCode Sealed Unit}
    (stays : ∀ tx, StaysSaving store tx (body tx)) :
    (transaction body).Obeys store.backupProtocol (.idle false)
      fun _ _ => True := by
  apply obeys_transaction (fun tx stage => stage = .saving tx)
    (fun _ => rfl) _ stays
  intro tx stage saving
  exact Or.inl saving

theorem stays_setBackupFlag {rows : List (Row (Value Sealed))}
    {row : Row (Value Sealed)} (member : row ∈ rows) (backedUp : Bool) :
    Query.Stays store.backupProtocol (· = .marking tx rows)
      (store.setBackupFlag tx row backedUp) := by
  apply Query.Stays.bind_done
  intro roomId hasRoom
  apply Query.Stays.bind_done
  intro sessionId hasSession
  apply Query.Stays.bind_done
  intro sealed hasPayload
  apply Query.Stays.bind_done
  intro pickle opens
  apply Query.Stays.bind_done
  intro resealed is
  apply Query.Stays.askWith
  · intro stage marking
    subst marking
    exact ⟨rfl, row, member, roomId, sessionId, sealed, pickle, backedUp,
      resealed, getText_eq_ok.mp hasRoom, getText_eq_ok.mp hasSession,
      getBlob_eq_ok.mp hasPayload, opens, is, rfl⟩
  · intro stage answer marking
    subst marking
    rfl

/-- Reading rows, then writing each back. -/
theorem stays_marks (conds : List (String × Value Sealed)) (backedUp : Bool) :
    Query.Stays store.backupProtocol
      (fun stage => ∃ rows, stage = .marking tx rows)
      (do
        let rows ← queryRows (some tx)
          (store.scopedSelect INBOUND_TABLE MARK_COLUMNS conds)
        rows.forM fun row => store.setBackupFlag tx row backedUp) := by
  intro stage marking
  obtain ⟨before, rfl⟩ := marking
  apply Query.obeys_bind
  refine ⟨⟨rfl, conds, rfl⟩, ?_⟩
  intro answer
  cases answer with
  | error error => exact ⟨before, rfl⟩
  | ok rows =>
      have each : Query.Stays store.backupProtocol (· = .marking tx rows)
          (rows.forM fun row => store.setBackupFlag tx row backedUp) := by
        apply Query.Stays.forM
        intro row member
        exact stays_setBackupFlag member backedUp
      apply (each _ rfl).mono
      intro stage result after
      exact ⟨rows, after⟩

theorem obeys_mark {body : ℕ → StoreCode Sealed Unit}
    (stays : ∀ tx, Query.Stays store.backupProtocol
      (fun stage => ∃ rows, stage = .marking tx rows) (body tx)) :
    (transaction body).Obeys store.backupProtocol (.idle true)
      fun _ _ => True := by
  apply obeys_transaction (fun tx stage => ∃ rows, stage = .marking tx rows)
    (fun _ => ⟨[], rfl⟩) _ stays
  intro tx stage marking
  exact Or.inr marking

theorem obeys_backupProgram (store : CryptoStore Content Sealed)
    (sdk : Sdk Content) (call : BackupCall Content) :
    (store.backupProgram sdk call).Obeys store.backupProtocol
      (.idle call.marks) fun _ _ => True := by
  cases call with
  | saveInboundGroupSessions sessions version =>
      apply obeys_save
      intro tx
      apply Query.Stays.forM
      intro session _
      exact stays_upsertInbound session _
  | saveChanges changes =>
      simp only [backupProgram, saveChanges]
      split
      next => trivial
      next =>
        apply obeys_save
        intro tx
        apply Query.Stays.bind (stays_applyAccount changes)
        intro _
        apply Query.Stays.bind (stays_applySessions changes)
        intro _
        exact stays_applyDevices changes
  | mark ids =>
      apply obeys_mark
      intro tx
      apply Query.Stays.forM
      intro id _
      exact stays_marks _ true
  | reset =>
      apply obeys_mark
      intro tx
      exact stays_marks [] false

end Obeys

end CryptoStore

end MiryadCore.Matrix.Crypto
