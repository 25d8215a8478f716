import Mathlib.Data.List.Sort
import MiryadCore.Control.Columns
import MiryadCore.Matrix.Leases

/-!
# The database of the crypto store

The tables are shared by the stores of all accounts.  Each store hashes the
columns that it looks up and seals what it keeps; what is sealed is opaque but
for the fields that the store reads.
-/

namespace MiryadCore.Matrix.Crypto

open Columns
open Users (DbErr)

/-- `PickledInboundGroupSession` -/
structure InboundPickle (Content : Type) where
  backedUp : Bool
  content : Content
  deriving DecidableEq, Repr

structure InboundGroupSession (Content : Type) where
  roomId : String
  sessionId : String
  senderKey : String
  senderDataType : ℤ
  pickle : InboundPickle Content
  deriving DecidableEq, Repr

/-- `Session` -/
structure OlmSession (Content : Type) where
  sessionId : String
  senderKey : String
  pickle : Content
  deriving DecidableEq, Repr

structure OutboundGroupSession (Content : Type) where
  roomId : String
  pickle : Content
  deriving DecidableEq, Repr

structure DeviceData (Content : Type) where
  userId : String
  deviceId : String
  content : Content
  deriving DecidableEq, Repr

structure UserIdentityData (Content : Type) where
  userId : String
  content : Content
  deriving DecidableEq, Repr

structure TrackedUser where
  userId : String
  dirty : Bool
  deriving DecidableEq, Repr

/-- `GossipRequest`; `infoKey` is the key of its `SecretInfo`. -/
structure GossipRequest (Content : Type) where
  requestId : String
  infoKey : String
  sentOut : Bool
  content : Content
  deriving DecidableEq, Repr

structure SecretsInboxItem where
  secretName : String
  secret : String
  deriving DecidableEq, Repr

structure StoredRoomKeyBundleData (Content : Type) where
  roomId : String
  senderUser : String
  content : Content
  deriving DecidableEq, Repr

/-- What is serialised and sealed. -/
inductive Plain (Content : Type) where
  | account (pickle : Content)
  | identity (pickle : Content)
  | text (value : String)
  | backupKey (key : Content)
  | dehydratedKey (key : Content)
  | bytes (value : List UInt8)
  | olm (pickle : Content)
  | inbound (pickle : InboundPickle Content)
  | outbound (pickle : Content)
  | withheld (entry : Content)
  | device (device : DeviceData Content)
  | userIdentity (identity : UserIdentityData Content)
  | tracked (user : TrackedUser)
  | gossip (request : GossipRequest Content)
  | roomSettings (settings : Content)
  | bundle (bundle : StoredRoomKeyBundleData Content)
  | pendingBundle (details : Content)
  deriving DecidableEq, Repr

/-- The cipher of an account, with what it is for: a keyed hash, and sealing. -/
structure Cipher (Content Sealed : Type) where
  hash : String → String → String
  encryptValue : Plain Content → Except StoreError Sealed
  openSealed : Sealed → Except StoreError (Plain Content)
  hash_injective : ∀ table, Function.Injective (hash table)
  open_encrypted : ∀ {plain : Plain Content} {value : Sealed},
    encryptValue plain = .ok value → openSealed value = .ok plain

/-- The value of a column. -/
inductive Value (Sealed : Type) where
  | text (value : String)
  | int (value : ℤ)
  | flag (value : Bool)
  | blob (value : Sealed)
  deriving DecidableEq, Repr

/-- `SeaOrmCryptoStore`, its connection apart. -/
structure CryptoStore (Content Sealed : Type) where
  accountKey : String
  cipher : Cipher Content Sealed

def KV_TABLE : String := "miryad_matrix_kv"
def OLM_TABLE : String := "miryad_matrix_olm_sessions"
def INBOUND_TABLE : String := "miryad_matrix_inbound_group_sessions"
def OUTBOUND_TABLE : String := "miryad_matrix_outbound_group_sessions"
def WITHHELD_TABLE : String := "miryad_matrix_withheld_sessions"
def DEVICES_TABLE : String := "miryad_matrix_devices"
def IDENTITIES_TABLE : String := "miryad_matrix_identities"
def TRACKED_TABLE : String := "miryad_matrix_tracked_users"
def MESSAGE_HASHES_TABLE : String := "miryad_matrix_message_hashes"
def SECRET_REQUESTS_TABLE : String := "miryad_matrix_secret_requests"
def SECRETS_INBOX_TABLE : String := "miryad_matrix_secrets_inbox"
def ROOM_SETTINGS_TABLE : String := "miryad_matrix_room_settings"
def ROOM_KEY_BUNDLES_TABLE : String := "miryad_matrix_room_key_bundles"
def PENDING_BUNDLES_TABLE : String := "miryad_matrix_rooms_pending_key_bundle"
def ROOM_KEYS_DOWNLOADED_TABLE : String := "miryad_matrix_room_keys_downloaded"

/-- The primary keys that the migration gives to the tables. -/
def primaryKeys : List (String × List String) :=
  [(KV_TABLE, ["account_key", "key"]),
    (OLM_TABLE, ["account_key", "session_id"]),
    (INBOUND_TABLE, ["account_key", "room_id", "session_id"]),
    (OUTBOUND_TABLE, ["account_key", "room_id"]),
    (WITHHELD_TABLE, ["account_key", "room_id", "session_id"]),
    (DEVICES_TABLE, ["account_key", "user_id", "device_id"]),
    (IDENTITIES_TABLE, ["account_key", "user_id"]),
    (TRACKED_TABLE, ["account_key", "user_id"]),
    (MESSAGE_HASHES_TABLE, ["account_key", "hash"]),
    (SECRET_REQUESTS_TABLE, ["account_key", "request_id"]),
    (SECRETS_INBOX_TABLE, ["account_key", "secret_name", "seq"]),
    (ROOM_SETTINGS_TABLE, ["account_key", "room_id"]),
    (ROOM_KEY_BUNDLES_TABLE, ["account_key", "room_id", "sender_user_id"]),
    (PENDING_BUNDLES_TABLE, ["account_key", "room_id"]),
    (ROOM_KEYS_DOWNLOADED_TABLE, ["account_key", "room_id"])]

def schema : Schema :=
  fun table => primaryKeys.lookup table

section Statements

variable (Sealed : Type)

/-- `SELECT columns FROM table WHERE ..`, perhaps past a text, ordered by a
column, and limited. -/
structure Selection where
  table : String
  columns : List String
  conds : List (String × Value Sealed)
  past : Option (String × String) := none
  orderBy : Option String := none
  limit : Option ℕ := none

inductive Request where
  | begin
  | execute (tx : ℕ) (statement : Statement (Value Sealed))
  | /-- A statement outside of a transaction is one of its own. -/
    single (statement : Statement (Value Sealed))
  | select (tx : Option ℕ) (selection : Selection Sealed)
  | maximum (tx : ℕ) (table column : String) (conds : List (String × Value Sealed))
  | count (table : String) (conds : List (String × Value Sealed))
  | commit (tx : ℕ)
  | rollback (tx : ℕ)

variable {Sealed}

@[reducible]
def Request.Reply : Request Sealed → Type
  | .begin => ℕ
  | .execute _ _ => Unit
  | .single _ => Unit
  | .select _ _ => List (Row (Value Sealed))
  | .maximum _ _ _ _ => Option ℤ
  | .count _ _ => ℕ
  | .commit _ => Unit
  | .rollback _ => Unit

abbrev Answer (request : Request Sealed) : Type :=
  Except DbErr request.Reply

variable (Sealed) in
/-- Whether a request fails, and in which order the rows come. -/
structure Circumstances where
  fault : Option DbErr
  shuffle : (rows : List (Row (Value Sealed))) →
    { order : List (Row (Value Sealed)) // order.Perm rows }

abbrev Database (Sealed : Type) : Type :=
  Tables (Value Sealed)

variable [DecidableEq Sealed]

/-- The rows that a connection sees. -/
def seen (database : Database Sealed) :
    Option ℕ → AList fun _ : Key (Value Sealed) => Row (Value Sealed)
  | some tx => database.view tx
  | none => database.rows

/-- `ORDER BY .. ASC` -/
def precedes : Option (Value Sealed) → Option (Value Sealed) → Prop
  | some (.text one), some (.text other) => one ≤ other
  | some (.int one), some (.int other) => one ≤ other
  | _, _ => True

instance : DecidableRel (α := Option (Value Sealed)) precedes
  | some (.text one), some (.text other) =>
      inferInstanceAs (Decidable (one ≤ other))
  | some (.int one), some (.int other) =>
      inferInstanceAs (Decidable (one ≤ other))
  | none, _ | some (.flag _), _ | some (.blob _), _ | some (.text _), none
  | some (.text _), some (.int _) | some (.text _), some (.flag _)
  | some (.text _), some (.blob _) | some (.int _), none
  | some (.int _), some (.text _) | some (.int _), some (.flag _)
  | some (.int _), some (.blob _) => isTrue trivial

namespace Selection

/-- Whether the row is past the text. -/
def isPast (selection : Selection Sealed) (row : Row (Value Sealed)) : Bool :=
  match selection.past with
  | none => true
  | some (column, text) =>
      match row column with
      | some (.text value) => text < value
      | _ => false

/-- The rows of the selection, before they are ordered. -/
def found (selection : Selection Sealed)
    (rows : AList fun _ : Key (Value Sealed) => Row (Value Sealed)) :
    List (Row (Value Sealed)) :=
  ((matching rows selection.table selection.conds).map Prod.snd).filter
    selection.isPast

def ordered (selection : Selection Sealed)
    (rows : List (Row (Value Sealed))) : List (Row (Value Sealed)) :=
  match selection.orderBy with
  | none => rows
  | some column =>
      rows.insertionSort fun one other => precedes (one column) (other column)

def limited (selection : Selection Sealed)
    (rows : List (Row (Value Sealed))) : List (Row (Value Sealed)) :=
  match selection.limit with
  | none => rows
  | some limit => rows.take limit

end Selection

/-- The rows that a selection answers with. -/
def Selection.answer (selection : Selection Sealed)
    (circumstances : Circumstances Sealed)
    (rows : AList fun _ : Key (Value Sealed) => Row (Value Sealed)) :
    List (Row (Value Sealed)) :=
  (selection.limited (selection.ordered (circumstances.shuffle
    (selection.found rows)))).map (Row.project selection.columns)

/-- `MAX(column)` -/
def maximumOf (rows : List (Row (Value Sealed))) (column : String) : Option ℤ :=
  (rows.filterMap fun row =>
    match row column with
    | some (.int value) => some value
    | _ => none).max?

/-- The statement was refused by the schema, or waited for too long. -/
def refused : DbErr :=
  .other "statement refused"

def perform (circumstances : Circumstances Sealed)
    (database : Database Sealed) :
    (request : Request Sealed) → Answer request × Database Sealed
  | .begin => (.ok database.transactions, database.start)
  | .execute tx statement =>
      match statement.perform schema database tx with
      | none => (.error refused, database)
      | some after => (.ok (), after)
  | .single statement =>
      match statement.perform schema database.start database.transactions with
      | none => (.error refused, database)
      | some after => (.ok (), after.commit database.transactions)
  | .select tx selection =>
      (.ok (selection.answer circumstances (seen database tx)), database)
  | .maximum tx table column conds =>
      (.ok (maximumOf ((matching (database.view tx) table conds).map Prod.snd)
        column), database)
  | .count table conds => (.ok (matching database.rows table conds).length,
      database)
  | .commit tx => (.ok (), database.commit tx)
  | .rollback tx => (.ok (), database.rollback tx)

/-- What a request that fails leaves: a commit that fails has rolled back. -/
def abandoned (database : Database Sealed) : Request Sealed → Database Sealed
  | .commit tx => database.rollback tx
  | .rollback tx => database.rollback tx
  | _ => database

def serve : Script.Service (Request Sealed) Answer (Circumstances Sealed)
    (Database Sealed) :=
  fun circumstances database request =>
    match circumstances.fault with
    | some error => (.error error, abandoned database request)
    | none => perform circumstances database request

/-- A row that a selection answers with is one that its conditions match. -/
theorem Selection.mem_answer {selection : Selection Sealed}
    {circumstances : Circumstances Sealed}
    {rows : AList fun _ : Key (Value Sealed) => Row (Value Sealed)}
    {row : Row (Value Sealed)}
    (member : row ∈ selection.answer circumstances rows) :
    ∃ key found, rows.lookup (selection.table, key) = some found ∧
      found.Matches selection.conds ∧
      row = Row.project selection.columns found := by
  obtain ⟨found, inside, rfl⟩ := List.mem_map.mp member
  have sorted : found ∈ selection.ordered
      (circumstances.shuffle (selection.found rows)) := by
    unfold limited at inside
    split at inside
    next => exact inside
    next limit _ => exact List.mem_of_mem_take inside
  have shuffled : found ∈ (circumstances.shuffle (selection.found rows)).val := by
    unfold ordered at sorted
    split at sorted
    next => exact sorted
    next column _ => exact (List.perm_insertionSort _ _).mem_iff.mp sorted
  have chosen := (circumstances.shuffle _).property.mem_iff.mp shuffled
  obtain ⟨entry, there, rfl⟩ := List.mem_map.mp (List.mem_of_mem_filter chosen)
  obtain ⟨found, fits⟩ := mem_matching.mp there
  exact ⟨entry.1, entry.2, found, fits, rfl⟩

end Statements

section Transactions

variable {Content Sealed : Type}

/-- The code of a call, as a script of its requests. -/
abbrev StoreCode (Sealed α : Type) : Type :=
  Query (Request Sealed) Answer StoreError α

/-- A request, with its error as one of the store. -/
def request (asked : Request Sealed) : StoreCode Sealed asked.Reply :=
  Query.askWith .db asked

/-- `execute` -/
def execute (tx : ℕ) (statement : Statement (Value Sealed)) :
    StoreCode Sealed Unit :=
  request (.execute tx statement)

/-- `query_rows` -/
def queryRows (tx : Option ℕ) (selection : Selection Sealed) :
    StoreCode Sealed (List (Row (Value Sealed))) :=
  request (.select tx selection)

/-- The end of a transaction: one that an error drops is rolled back. -/
def finish (tx : ℕ) : Except StoreError Unit → StoreCode Sealed Unit
  | .ok () => request (.commit tx)
  | .error error => Script.call (.rollback tx) fun _ => Query.fail error

/-- `begin`, the statements, and `commit`. -/
def transaction (body : ℕ → StoreCode Sealed Unit) : StoreCode Sealed Unit := do
  let tx ← request .begin
  Script.bind (body tx) (finish tx)

/-- `upsert`: the columns outside of the key are updated. -/
def upsert (table : String) (columns : List String)
    (values : List (Value Sealed)) (primaryKey : List String) :
    Statement (Value Sealed) :=
  .upsert table columns values primaryKey
    (columns.filter fun column => column ∉ primaryKey)

/-- `row.try_get` of a blob. -/
def getBlob (row : Row (Value Sealed)) (column : String) :
    Except StoreError Sealed :=
  match row column with
  | some (.blob value) => .ok value
  | _ => .error (.db (.other ("column " ++ column)))

/-- `row.try_get` of a text. -/
def getText (row : Row (Value Sealed)) (column : String) :
    Except StoreError String :=
  match row column with
  | some (.text value) => .ok value
  | _ => .error (.db (.other ("column " ++ column)))

theorem getBlob_eq_ok {row : Row (Value Sealed)} {column : String}
    {value : Sealed} :
    getBlob row column = .ok value ↔ row column = some (.blob value) := by
  unfold getBlob
  split
  next found is => rw [is, Except.ok.injEq, Option.some.injEq, Value.blob.injEq]
  next other =>
    constructor
    · intro same
      cases same
    · exact fun is => absurd is (other value)

theorem getText_eq_ok {row : Row (Value Sealed)} {column value : String} :
    getText row column = .ok value ↔ row column = some (.text value) := by
  unfold getText
  split
  next found is => rw [is, Except.ok.injEq, Option.some.injEq, Value.text.injEq]
  next other =>
    constructor
    · intro same
      cases same
    · exact fun is => absurd is (other value)

namespace CryptoStore

variable (store : CryptoStore Content Sealed)

/-- `hashed` and `dev_hashed` -/
def hashed (table value : String) : Value Sealed :=
  .text (store.cipher.hash table value)

def account : Value Sealed :=
  .text store.accountKey

/-- `seal` -/
def sealed (plain : Plain Content) : StoreCode Sealed Sealed :=
  Query.ofExcept (store.cipher.encryptValue plain)

/-- `scoped` and `dev_scoped`, with further conditions. -/
def scopedSelect (table : String) (columns : List String)
    (conds : List (String × Value Sealed)) : Selection Sealed :=
  { table, columns, conds := ("account_key", store.account) :: conds }

end CryptoStore

end Transactions

end MiryadCore.Matrix.Crypto
