import MiryadCore.Matrix.DeviceBatches

/-!
# What the crypto store answers

A getter selects the rows of its account and opens their payloads.  The object
in a payload has the type that the getter expects, or the getter fails.
-/

namespace MiryadCore.Matrix.Crypto

open Columns

variable {Content Sealed : Type}

namespace Plain

def asAccount : Plain Content → Option Content
  | .account pickle => some pickle
  | _ => none

def asIdentity : Plain Content → Option Content
  | .identity pickle => some pickle
  | _ => none

def asText : Plain Content → Option String
  | .text value => some value
  | _ => none

def asBackupKey : Plain Content → Option Content
  | .backupKey key => some key
  | _ => none

def asDehydratedKey : Plain Content → Option Content
  | .dehydratedKey key => some key
  | _ => none

def asBytes : Plain Content → Option (List UInt8)
  | .bytes value => some value
  | _ => none

def asOlm : Plain Content → Option Content
  | .olm pickle => some pickle
  | _ => none

def asOutbound : Plain Content → Option Content
  | .outbound pickle => some pickle
  | _ => none

def asWithheld : Plain Content → Option Content
  | .withheld entry => some entry
  | _ => none

def asDevice : Plain Content → Option (DeviceData Content)
  | .device data => some data
  | _ => none

def asUserIdentity : Plain Content → Option (UserIdentityData Content)
  | .userIdentity data => some data
  | _ => none

def asTracked : Plain Content → Option TrackedUser
  | .tracked user => some user
  | _ => none

def asGossip : Plain Content → Option (GossipRequest Content)
  | .gossip request => some request
  | _ => none

def asRoomSettings : Plain Content → Option Content
  | .roomSettings settings => some settings
  | _ => none

def asBundle : Plain Content → Option (StoredRoomKeyBundleData Content)
  | .bundle data => some data
  | _ => none

def asPendingBundle : Plain Content → Option Content
  | .pendingBundle details => some details
  | _ => none

end Plain

/-- `BackupKeys` -/
structure BackupKeys (Content : Type) where
  decryptionKey : Option Content
  backupVersion : Option String
  deriving DecidableEq, Repr

/-- `RoomKeyCounts` -/
structure RoomKeyCounts where
  total : ℕ
  backedUp : ℕ
  deriving DecidableEq, Repr

namespace CryptoStore

variable (store : CryptoStore Content Sealed)

/-- `open_sealed` at a type. -/
def openAs {α : Type} (type : Plain Content → Option α) (sealed : Sealed) :
    Except StoreError α :=
  match store.cipher.openSealed sealed with
  | .ok plain =>
      match type plain with
      | some value => .ok value
      | none => .error (.corrupt "invalid type")
  | .error error => .error error

/-- The object in the payload of a row. -/
def payloadAs {α : Type} (type : Plain Content → Option α)
    (row : Row (Value Sealed)) : Except StoreError α := do
  let sealed ← getBlob row "payload"
  store.openAs type sealed

/-- `one_payload` -/
def onePayload {α : Type} (type : Plain Content → Option α)
    (selection : Selection Sealed) : StoreCode Sealed (Option α) := do
  let rows ← queryRows none selection
  match rows.head? with
  | some row =>
      let value ← Query.ofExcept (store.payloadAs type row)
      return some value
  | none => return none

/-- `all_payloads` -/
def allPayloads {α : Type} (type : Plain Content → Option α)
    (selection : Selection Sealed) : StoreCode Sealed (List α) := do
  let rows ← queryRows none selection
  Query.ofExcept (rows.mapM (store.payloadAs type))

/-- `get_sealed`, with `Kv::get`. -/
def getSealed {α : Type} (type : Plain Content → Option α) (key : String) :
    StoreCode Sealed (Option α) := do
  let rows ← queryRows none
    (store.scopedSelect KV_TABLE ["value"] [("key", .text key)])
  match rows.head? with
  | some row =>
      let sealed ← Query.ofExcept (getBlob row "value")
      let value ← Query.ofExcept (store.openAs type sealed)
      return some value
  | none => return none

def loadAccount (sdk : Sdk Content) : StoreCode Sealed (Option Content) := do
  match ← store.getSealed Plain.asAccount KEY_ACCOUNT with
  | some pickle =>
      let account ← Query.ofExcept
        ((sdk.accountFromPickle pickle).mapError .corrupt)
      return some account
  | none => return none

def loadIdentity (sdk : Sdk Content) : StoreCode Sealed (Option Content) := do
  match ← store.getSealed Plain.asIdentity KEY_IDENTITY with
  | some pickle =>
      let identity ← Query.ofExcept
        ((sdk.identityFromPickle pickle).mapError .corrupt)
      return some identity
  | none => return none

def loadBackupKeys : StoreCode Sealed (BackupKeys Content) := do
  let decryptionKey ← store.getSealed Plain.asBackupKey
    KEY_BACKUP_DECRYPTION_KEY
  let backupVersion ← store.getSealed Plain.asText KEY_BACKUP_VERSION
  return { decryptionKey, backupVersion }

def loadDehydratedDevicePickleKey : StoreCode Sealed (Option Content) :=
  store.getSealed Plain.asDehydratedKey KEY_DEHYDRATED_PICKLE_KEY

def nextBatchToken : StoreCode Sealed (Option String) :=
  store.getSealed Plain.asText KEY_NEXT_BATCH

def getCustomValue (key : String) : StoreCode Sealed (Option (List UInt8)) :=
  store.getSealed Plain.asBytes (CUSTOM_PREFIX ++ key)

/-- `load_account_for_unpickle` -/
def loadAccountForUnpickle (sdk : Sdk Content) : StoreCode Sealed Content := do
  match ← store.loadAccount sdk with
  | some account => return account
  | none => Query.fail (.corrupt "pas de compte")

def getOwnDevice (sdk : Sdk Content) :
    StoreCode Sealed (DeviceData Content) := do
  match ← store.loadAccount sdk with
  | some account => return sdk.deviceFromAccount account
  | none => Query.fail (.corrupt "pas de compte")

def getSessions (sdk : Sdk Content) (senderKey : String) :
    StoreCode Sealed (Option (List Content)) := do
  let rows ← queryRows none (store.scopedSelect OLM_TABLE ["payload"]
    [("sender_key", store.hashed OLM_TABLE senderKey)])
  if rows.isEmpty then return none
  else
    let account ← store.loadAccountForUnpickle sdk
    let sessions ← Query.ofExcept (rows.mapM fun row => do
      let pickle ← store.payloadAs Plain.asOlm row
      (sdk.sessionFromPickle (sdk.deviceKeys account) pickle).mapError .corrupt)
    return some sessions

section Inbound

variable (fromPickle : InboundPickle Content →
  Except String (InboundGroupSession Content))

/-- The inbound sessions of a selection. -/
def inboundSessions (selection : Selection Sealed) :
    StoreCode Sealed (List (InboundGroupSession Content)) := do
  let rows ← queryRows none selection
  Query.ofExcept (store.inboundFromRows fromPickle rows)

def getInboundGroupSession (roomId sessionId : String) :
    StoreCode Sealed (Option (InboundGroupSession Content)) := do
  let sessions ← store.inboundSessions fromPickle
    (store.scopedSelect INBOUND_TABLE ["payload"]
      [("room_id", store.hashed INBOUND_TABLE roomId),
        ("session_id", store.hashed INBOUND_TABLE sessionId)])
  return sessions.head?

def getInboundGroupSessions :
    StoreCode Sealed (List (InboundGroupSession Content)) :=
  store.inboundSessions fromPickle
    (store.scopedSelect INBOUND_TABLE ["payload"] [])

def getInboundGroupSessionsByRoomId (roomId : String) :
    StoreCode Sealed (List (InboundGroupSession Content)) :=
  store.inboundSessions fromPickle
    (store.scopedSelect INBOUND_TABLE ["payload"]
      [("room_id", store.hashed INBOUND_TABLE roomId)])

def inboundGroupSessionsForBackup (limit : UInt64) :
    StoreCode Sealed (List (InboundGroupSession Content)) :=
  store.inboundSessions fromPickle
    { store.scopedSelect INBOUND_TABLE ["payload"]
        [("backed_up", .flag false)] with
      limit := some limit.toNat }

end Inbound

/-- `count_inbound` -/
def countInbound (onlyBackedUp : Bool) : StoreCode Sealed ℕ :=
  request (.count INBOUND_TABLE (("account_key", store.account) ::
    if onlyBackedUp then [("backed_up", .flag true)] else []))

def inboundGroupSessionCounts (backupVersion : Option String) :
    StoreCode Sealed RoomKeyCounts := do
  let total ← store.countInbound false
  match backupVersion with
  | some _ =>
      let backedUp ← store.countInbound true
      return { total, backedUp }
  | none => return { total, backedUp := 0 }

def getWithheldInfo (roomId sessionId : String) :
    StoreCode Sealed (Option Content) :=
  store.onePayload Plain.asWithheld
    (store.scopedSelect WITHHELD_TABLE ["payload"]
      [("room_id", store.hashed WITHHELD_TABLE roomId),
        ("session_id", store.hashed WITHHELD_TABLE sessionId)])

def getWithheldSessionsByRoomId (roomId : String) :
    StoreCode Sealed (List Content) :=
  store.allPayloads Plain.asWithheld
    (store.scopedSelect WITHHELD_TABLE ["payload"]
      [("room_id", store.hashed WITHHELD_TABLE roomId)])

def getOutboundGroupSession (sdk : Sdk Content) (roomId : String) :
    StoreCode Sealed (Option Content) := do
  match ← store.onePayload Plain.asOutbound
    (store.scopedSelect OUTBOUND_TABLE ["payload"]
      [("room_id", store.hashed OUTBOUND_TABLE roomId)]) with
  | some pickle =>
      let account ← store.loadAccountForUnpickle sdk
      let session ← Query.ofExcept ((sdk.outboundFromPickle
        (sdk.deviceId account) (sdk.identityKeys account) pickle).mapError
          .corrupt)
      return some session
  | none => return none

def loadTrackedUsers : StoreCode Sealed (List TrackedUser) :=
  store.allPayloads Plain.asTracked
    (store.scopedSelect TRACKED_TABLE ["payload"] [])

def getDevice (userId deviceId : String) :
    StoreCode Sealed (Option (DeviceData Content)) :=
  store.onePayload Plain.asDevice
    (store.scopedSelect DEVICES_TABLE ["payload"]
      [("user_id", store.hashed DEVICES_TABLE userId),
        ("device_id", store.hashed DEVICES_TABLE deviceId)])

/-- The devices, each at its id; the last one of an id stays. -/
def getUserDevices (userId : String) :
    StoreCode Sealed (AList fun _ : String => DeviceData Content) := do
  let devices ← store.allPayloads Plain.asDevice
    (store.scopedSelect DEVICES_TABLE ["payload"]
      [("user_id", store.hashed DEVICES_TABLE userId)])
  return devices.foldl
    (fun known device => known.insert device.deviceId device) ∅

def getUserIdentity (userId : String) :
    StoreCode Sealed (Option (UserIdentityData Content)) :=
  store.onePayload Plain.asUserIdentity
    (store.scopedSelect IDENTITIES_TABLE ["payload"]
      [("user_id", store.hashed IDENTITIES_TABLE userId)])

def isMessageKnown (hash : String) : StoreCode Sealed Bool := do
  let rows ← queryRows none
    (store.scopedSelect MESSAGE_HASHES_TABLE ["hash"]
      [("hash", store.hashed MESSAGE_HASHES_TABLE hash)])
  return !rows.isEmpty

def getOutgoingSecretRequests (requestId : String) :
    StoreCode Sealed (Option (GossipRequest Content)) :=
  store.onePayload Plain.asGossip
    (store.scopedSelect SECRET_REQUESTS_TABLE ["payload"]
      [("request_id", store.hashed SECRET_REQUESTS_TABLE requestId)])

def getSecretRequestByInfo (infoKey : String) :
    StoreCode Sealed (Option (GossipRequest Content)) :=
  store.onePayload Plain.asGossip
    (store.scopedSelect SECRET_REQUESTS_TABLE ["payload"]
      [("info_key", store.hashed SECRET_REQUESTS_TABLE infoKey)])

def getUnsentSecretRequests :
    StoreCode Sealed (List (GossipRequest Content)) :=
  store.allPayloads Plain.asGossip
    (store.scopedSelect SECRET_REQUESTS_TABLE ["payload"]
      [("sent_out", .flag false)])

def getSecretsFromInbox (secretName : String) :
    StoreCode Sealed (List String) :=
  store.allPayloads Plain.asText
    { store.scopedSelect SECRETS_INBOX_TABLE ["payload"]
        [("secret_name", store.hashed SECRETS_INBOX_TABLE secretName)] with
      orderBy := some "seq" }

def getRoomSettings (roomId : String) : StoreCode Sealed (Option Content) :=
  store.onePayload Plain.asRoomSettings
    (store.scopedSelect ROOM_SETTINGS_TABLE ["payload"]
      [("room_id", store.hashed ROOM_SETTINGS_TABLE roomId)])

def getReceivedRoomKeyBundleData (roomId userId : String) :
    StoreCode Sealed (Option (StoredRoomKeyBundleData Content)) :=
  store.onePayload Plain.asBundle
    (store.scopedSelect ROOM_KEY_BUNDLES_TABLE ["payload"]
      [("room_id", store.hashed ROOM_KEY_BUNDLES_TABLE roomId),
        ("sender_user_id", store.hashed ROOM_KEY_BUNDLES_TABLE userId)])

def getPendingKeyBundleDetailsForRoom (roomId : String) :
    StoreCode Sealed (Option Content) :=
  store.onePayload Plain.asPendingBundle
    (store.scopedSelect PENDING_BUNDLES_TABLE ["payload"]
      [("room_id", store.hashed PENDING_BUNDLES_TABLE roomId)])

def getAllRoomsPendingKeyBundles : StoreCode Sealed (List Content) :=
  store.allPayloads Plain.asPendingBundle
    (store.scopedSelect PENDING_BUNDLES_TABLE ["payload"] [])

def hasDownloadedAllRoomKeys (roomId : String) : StoreCode Sealed Bool := do
  let rows ← queryRows none
    (store.scopedSelect ROOM_KEYS_DOWNLOADED_TABLE ["room_id"]
      [("room_id", store.hashed ROOM_KEYS_DOWNLOADED_TABLE roomId)])
  return !rows.isEmpty

end CryptoStore

end MiryadCore.Matrix.Crypto
