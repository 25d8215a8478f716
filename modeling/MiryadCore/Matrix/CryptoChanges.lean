import MiryadCore.Matrix.CryptoStore

/-!
# What the crypto store writes

The changes of an account are written in one transaction, table by table.  The
marks of a backup are in a column of the inbound sessions and in their pickles.
-/

namespace MiryadCore.Matrix.Crypto

open Columns
open Users (DbErr)

variable {Content Sealed : Type}

structure IdentityChanges (Content : Type) where
  new : List (UserIdentityData Content) := []
  changed : List (UserIdentityData Content) := []
  unchanged : List (UserIdentityData Content) := []
  deriving DecidableEq, Repr

structure DeviceChanges (Content : Type) where
  new : List (DeviceData Content) := []
  changed : List (DeviceData Content) := []
  deleted : List (DeviceData Content) := []
  deriving DecidableEq, Repr

/-- `Changes`; a map is the list of its entries, as they are iterated. -/
structure Changes (Content : Type) where
  privateIdentity : Option Content := none
  backupVersion : Option String := none
  backupDecryptionKey : Option Content := none
  dehydratedDevicePickleKey : Option Content := none
  nextBatchToken : Option String := none
  sessions : List (OlmSession Content) := []
  inboundGroupSessions : List (InboundGroupSession Content) := []
  outboundGroupSessions : List (OutboundGroupSession Content) := []
  withheldSessionInfo : List (String × List (String × Content)) := []
  messageHashes : List String := []
  keyRequests : List (GossipRequest Content) := []
  identities : IdentityChanges Content := {}
  devices : DeviceChanges Content := {}
  roomSettings : List (String × Content) := []
  secrets : List SecretsInboxItem := []
  receivedRoomKeyBundles : List (StoredRoomKeyBundleData Content) := []
  roomKeyBackupsFullyDownloaded : List String := []
  roomsPendingKeyBundle : List (String × Option Content) := []
  deriving DecidableEq, Repr

/-- `PendingChanges` -/
structure PendingChanges (Content : Type) where
  account : Option Content

/-- `matrix-sdk-crypto`, as far as the store calls it.  What is empty for it
has no change but in the two fields that it does not look at. -/
structure Sdk (Content : Type) where
  isEmpty : Changes Content → Bool
  accountFromPickle : Content → Except String Content
  identityFromPickle : Content → Except String Content
  deviceKeys : Content → Content
  identityKeys : Content → Content
  deviceId : Content → String
  deviceFromAccount : Content → DeviceData Content
  sessionFromPickle : Content → Content → Except String Content
  inboundFromPickle : InboundPickle Content → Except String Content
  outboundFromPickle : String → Content → Content → Except String Content
  others_of_isEmpty : ∀ {changes : Changes Content}, isEmpty changes = true →
    changes =
      { roomKeyBackupsFullyDownloaded := changes.roomKeyBackupsFullyDownloaded
        roomsPendingKeyBundle := changes.roomsPendingKeyBundle }

namespace CryptoStore

variable (store : CryptoStore Content Sealed)

/-- `Kv::put` -/
def kvPut (key : String) (value : Sealed) : Statement (Value Sealed) :=
  .upsert KV_TABLE ["account_key", "key", "value"]
    [store.account, .text key, .blob value] ["account_key", "key"] ["value"]

/-- `Kv::delete` -/
def kvDelete (key : String) : Statement (Value Sealed) :=
  .delete KV_TABLE [("account_key", store.account), ("key", .text key)]

def KEY_ACCOUNT : String := "account"
def KEY_IDENTITY : String := "identity"
def KEY_BACKUP_VERSION : String := "backup_version"
def KEY_BACKUP_DECRYPTION_KEY : String := "backup_decryption_key"
def KEY_DEHYDRATED_PICKLE_KEY : String := "dehydrated_pickle_key"
def KEY_NEXT_BATCH : String := "next_batch"
def CUSTOM_PREFIX : String := "custom:"

/-- `put_sealed` in a transaction. -/
def putSealed (tx : ℕ) (key : String) (value : Plain Content) :
    StoreCode Sealed Unit := do
  let sealed ← store.sealed value
  execute tx (store.kvPut key sealed)

/-- `put_sealed` of a value that may be missing. -/
def putOptional (tx : ℕ) (key : String) :
    Option (Plain Content) → StoreCode Sealed Unit
  | none => pure ()
  | some value => store.putSealed tx key value

def applyAccount (tx : ℕ) (changes : Changes Content) :
    StoreCode Sealed Unit := do
  store.putOptional tx KEY_IDENTITY (changes.privateIdentity.map .identity)
  store.putOptional tx KEY_BACKUP_VERSION (changes.backupVersion.map .text)
  store.putOptional tx KEY_BACKUP_DECRYPTION_KEY
    (changes.backupDecryptionKey.map .backupKey)
  store.putOptional tx KEY_DEHYDRATED_PICKLE_KEY
    (changes.dehydratedDevicePickleKey.map .dehydratedKey)
  store.putOptional tx KEY_NEXT_BATCH (changes.nextBatchToken.map .text)

def savePendingChanges (changes : PendingChanges Content) :
    StoreCode Sealed Unit :=
  match changes.account with
  | none => pure ()
  | some account =>
      transaction fun tx => store.putSealed tx KEY_ACCOUNT (.account account)

def deleteDehydratedDevicePickleKey : StoreCode Sealed Unit :=
  request (.single (store.kvDelete KEY_DEHYDRATED_PICKLE_KEY))

def setCustomValue (key : String) (value : List UInt8) :
    StoreCode Sealed Unit := do
  let sealed ← store.sealed (.bytes value)
  request (.single (store.kvPut (CUSTOM_PREFIX ++ key) sealed))

def removeCustomValue (key : String) : StoreCode Sealed Unit :=
  request (.single (store.kvDelete (CUSTOM_PREFIX ++ key)))

/-- The statement that writes an inbound session, sealed. -/
def inboundUpsert (session : InboundGroupSession Content) (backedUp : Bool)
    (sealed : Sealed) : Statement (Value Sealed) :=
  upsert INBOUND_TABLE
    ["account_key", "room_id", "session_id", "sender_key", "sender_data_type",
      "backed_up", "payload"]
    [store.account, store.hashed INBOUND_TABLE session.roomId,
      store.hashed INBOUND_TABLE session.sessionId,
      store.hashed INBOUND_TABLE session.senderKey,
      .int session.senderDataType, .flag backedUp, .blob sealed]
    ["account_key", "room_id", "session_id"]

/-- `upsert_inbound`, with `seal_inbound`. -/
def upsertInbound (tx : ℕ) (session : InboundGroupSession Content)
    (backedUp : Bool) : StoreCode Sealed Unit := do
  let sealed ← store.sealed (.inbound { session.pickle with backedUp })
  execute tx (store.inboundUpsert session backedUp sealed)

def saveInboundGroupSessions (sessions : List (InboundGroupSession Content))
    (backedUpToVersion : Option String) : StoreCode Sealed Unit :=
  transaction fun tx =>
    sessions.forM fun session =>
      store.upsertInbound tx session backedUpToVersion.isSome

def applySessions (tx : ℕ) (changes : Changes Content) :
    StoreCode Sealed Unit := do
  changes.sessions.forM fun session => do
    let sealed ← store.sealed (.olm session.pickle)
    execute tx (upsert OLM_TABLE
      ["account_key", "session_id", "sender_key", "payload"]
      [store.account, store.hashed OLM_TABLE session.sessionId,
        store.hashed OLM_TABLE session.senderKey, .blob sealed]
      ["account_key", "session_id"])
  changes.inboundGroupSessions.forM fun session =>
    store.upsertInbound tx session session.pickle.backedUp
  changes.outboundGroupSessions.forM fun session => do
    let sealed ← store.sealed (.outbound session.pickle)
    execute tx (upsert OUTBOUND_TABLE ["account_key", "room_id", "payload"]
      [store.account, store.hashed OUTBOUND_TABLE session.roomId, .blob sealed]
      ["account_key", "room_id"])
  changes.withheldSessionInfo.forM fun (roomId, entries) =>
    entries.forM fun (sessionId, entry) => do
      let sealed ← store.sealed (.withheld entry)
      execute tx (upsert WITHHELD_TABLE
        ["account_key", "room_id", "session_id", "payload"]
        [store.account, store.hashed WITHHELD_TABLE roomId,
          store.hashed WITHHELD_TABLE sessionId, .blob sealed]
        ["account_key", "room_id", "session_id"])

/-- The columns that a mark reads. -/
def MARK_COLUMNS : List String := ["room_id", "session_id", "payload"]

/-- Opening the pickle of an inbound session. -/
def openInbound (sealed : Sealed) : Except StoreError (InboundPickle Content) :=
  match store.cipher.openSealed sealed with
  | .ok (.inbound pickle) => .ok pickle
  | .ok _ => .error (.corrupt "invalid type")
  | .error error => .error error

def setBackupFlag (tx : ℕ) (row : Row (Value Sealed)) (backedUp : Bool) :
    StoreCode Sealed Unit := do
  let roomId ← Query.ofExcept (getText row "room_id")
  let sessionId ← Query.ofExcept (getText row "session_id")
  let sealed ← Query.ofExcept (getBlob row "payload")
  let pickle ← Query.ofExcept (store.openInbound sealed)
  let resealed ← store.sealed (.inbound { pickle with backedUp })
  execute tx (.update INBOUND_TABLE
    [("backed_up", .flag backedUp), ("payload", .blob resealed)]
    [("account_key", store.account), ("room_id", .text roomId),
      ("session_id", .text sessionId)])

def markInboundGroupSessionsAsBackedUp
    (roomAndSessionIds : List (String × String)) : StoreCode Sealed Unit :=
  transaction fun tx =>
    roomAndSessionIds.forM fun (roomId, sessionId) => do
      let rows ← queryRows (some tx)
        (store.scopedSelect INBOUND_TABLE MARK_COLUMNS
          [("room_id", store.hashed INBOUND_TABLE roomId),
            ("session_id", store.hashed INBOUND_TABLE sessionId)])
      rows.forM fun row => store.setBackupFlag tx row true

def resetBackupState : StoreCode Sealed Unit :=
  transaction fun tx => do
    let rows ← queryRows (some tx)
      (store.scopedSelect INBOUND_TABLE MARK_COLUMNS [])
    rows.forM fun row => store.setBackupFlag tx row false

def saveTrackedUsers (users : List (String × Bool)) : StoreCode Sealed Unit :=
  transaction fun tx =>
    users.forM fun (userId, dirty) => do
      let sealed ← store.sealed (.tracked { userId, dirty })
      execute tx (upsert TRACKED_TABLE
        ["account_key", "user_id", "dirty", "payload"]
        [store.account, store.hashed TRACKED_TABLE userId, .flag dirty,
          .blob sealed]
        ["account_key", "user_id"])

def deleteOutgoingSecretRequests (requestId : String) :
    StoreCode Sealed Unit :=
  request (.single (.delete SECRET_REQUESTS_TABLE
    [("account_key", store.account),
      ("request_id", store.hashed SECRET_REQUESTS_TABLE requestId)]))

def deleteSecretsFromInbox (secretName : String) : StoreCode Sealed Unit :=
  request (.single (.delete SECRETS_INBOX_TABLE
    [("account_key", store.account),
      ("secret_name", store.hashed SECRETS_INBOX_TABLE secretName)]))

/-- `next_secret_seq` -/
def nextSecretSeq (tx : ℕ) (secretHash : Value Sealed) :
    StoreCode Sealed ℤ := do
  let max ← request (.maximum tx SECRETS_INBOX_TABLE "seq"
    [("account_key", store.account), ("secret_name", secretHash)])
  match max with
  | none => pure 0
  | some max =>
      if max < i64Max then pure (max + 1)
      else Query.fail (.corrupt "numéro de séquence saturé")

def applyHashesAndRequests (tx : ℕ) (changes : Changes Content) :
    StoreCode Sealed Unit := do
  changes.messageHashes.forM fun hash =>
    execute tx (.insertIgnore MESSAGE_HASHES_TABLE ["account_key", "hash"]
      [store.account, store.hashed MESSAGE_HASHES_TABLE hash]
      ["account_key", "hash"])
  changes.keyRequests.forM fun request => do
    let sealed ← store.sealed (.gossip request)
    execute tx (upsert SECRET_REQUESTS_TABLE
      ["account_key", "request_id", "info_key", "sent_out", "payload"]
      [store.account, store.hashed SECRET_REQUESTS_TABLE request.requestId,
        store.hashed SECRET_REQUESTS_TABLE request.infoKey,
        .flag request.sentOut, .blob sealed]
      ["account_key", "request_id"])

def applyIdentitiesAndDevices (tx : ℕ) (changes : Changes Content) :
    StoreCode Sealed Unit := do
  (changes.identities.new ++ changes.identities.changed ++
    changes.identities.unchanged).forM fun identity => do
      let sealed ← store.sealed (.userIdentity identity)
      execute tx (upsert IDENTITIES_TABLE ["account_key", "user_id", "payload"]
        [store.account, store.hashed IDENTITIES_TABLE identity.userId,
          .blob sealed]
        ["account_key", "user_id"])
  (changes.devices.new ++ changes.devices.changed).forM fun device => do
    let sealed ← store.sealed (.device device)
    execute tx (upsert DEVICES_TABLE
      ["account_key", "user_id", "device_id", "payload"]
      [store.account, store.hashed DEVICES_TABLE device.userId,
        store.hashed DEVICES_TABLE device.deviceId, .blob sealed]
      ["account_key", "user_id", "device_id"])
  changes.devices.deleted.forM fun device =>
    execute tx (.delete DEVICES_TABLE
      [("account_key", store.account),
        ("user_id", store.hashed DEVICES_TABLE device.userId),
        ("device_id", store.hashed DEVICES_TABLE device.deviceId)])

def applyRoomSettingsAndSecrets (tx : ℕ) (changes : Changes Content) :
    StoreCode Sealed Unit := do
  changes.roomSettings.forM fun (roomId, settings) => do
    let sealed ← store.sealed (.roomSettings settings)
    execute tx (upsert ROOM_SETTINGS_TABLE ["account_key", "room_id", "payload"]
      [store.account, store.hashed ROOM_SETTINGS_TABLE roomId, .blob sealed]
      ["account_key", "room_id"])
  changes.secrets.forM fun item => do
    let secretHash := store.hashed SECRETS_INBOX_TABLE item.secretName
    let seq ← store.nextSecretSeq tx secretHash
    let sealed ← store.sealed (.text item.secret)
    execute tx (.insert SECRETS_INBOX_TABLE
      ["account_key", "secret_name", "seq", "payload"]
      [store.account, secretHash, .int seq, .blob sealed])

def applyRoomKeyBundles (tx : ℕ) (changes : Changes Content) :
    StoreCode Sealed Unit := do
  changes.receivedRoomKeyBundles.forM fun bundle => do
    let sealed ← store.sealed (.bundle bundle)
    execute tx (upsert ROOM_KEY_BUNDLES_TABLE
      ["account_key", "room_id", "sender_user_id", "payload"]
      [store.account, store.hashed ROOM_KEY_BUNDLES_TABLE bundle.roomId,
        store.hashed ROOM_KEY_BUNDLES_TABLE bundle.senderUser, .blob sealed]
      ["account_key", "room_id", "sender_user_id"])
  changes.roomKeyBackupsFullyDownloaded.forM fun roomId =>
    execute tx (.insertIgnore ROOM_KEYS_DOWNLOADED_TABLE
      ["account_key", "room_id"]
      [store.account, store.hashed ROOM_KEYS_DOWNLOADED_TABLE roomId]
      ["account_key", "room_id"])
  changes.roomsPendingKeyBundle.forM fun (roomId, details) => do
    let roomHash := store.hashed PENDING_BUNDLES_TABLE roomId
    match details with
    | some details =>
        let sealed ← store.sealed (.pendingBundle details)
        execute tx (upsert PENDING_BUNDLES_TABLE
          ["account_key", "room_id", "payload"]
          [store.account, roomHash, .blob sealed] ["account_key", "room_id"])
    | none =>
        execute tx (.delete PENDING_BUNDLES_TABLE
          [("account_key", store.account), ("room_id", roomHash)])

def applyDevices (tx : ℕ) (changes : Changes Content) :
    StoreCode Sealed Unit := do
  store.applyHashesAndRequests tx changes
  store.applyIdentitiesAndDevices tx changes
  store.applyRoomSettingsAndSecrets tx changes
  store.applyRoomKeyBundles tx changes

def saveChanges (sdk : Sdk Content) (changes : Changes Content) :
    StoreCode Sealed Unit :=
  if sdk.isEmpty changes = true ∧
      changes.roomKeyBackupsFullyDownloaded = [] ∧
      changes.roomsPendingKeyBundle = [] then
    pure ()
  else
    transaction fun tx => do
      store.applyAccount tx changes
      store.applySessions tx changes
      store.applyDevices tx changes

end CryptoStore

end MiryadCore.Matrix.Crypto
