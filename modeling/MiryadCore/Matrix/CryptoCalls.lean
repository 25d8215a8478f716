import MiryadCore.Matrix.CryptoGetters
import MiryadCore.Matrix.CryptoTables

/-!
# The calls on a store, and what they are for

A call reads or writes.  What a getter is for is said of the record alone: the
value at a key, or all that is chosen, once each and in any order.
-/

namespace MiryadCore.Matrix.Crypto

open Columns

variable {Content Sealed : Type}

/-- A call that reads. -/
inductive ReadCall where
  | loadAccount
  | loadIdentity
  | loadBackupKeys
  | loadDehydratedDevicePickleKey
  | nextBatchToken
  | getCustomValue (key : String)
  | getOwnDevice
  | getSessions (senderKey : String)
  | getInboundGroupSession (roomId sessionId : String)
  | getInboundGroupSessions
  | getInboundGroupSessionsByRoomId (roomId : String)
  | inboundGroupSessionsForBackup (limit : UInt64)
  | inboundGroupSessionCounts (backupVersion : Option String)
  | getWithheldInfo (roomId sessionId : String)
  | getWithheldSessionsByRoomId (roomId : String)
  | getOutboundGroupSession (roomId : String)
  | loadTrackedUsers
  | getDevice (userId deviceId : String)
  | getUserDevices (userId : String)
  | getUserIdentity (userId : String)
  | isMessageKnown (hash : String)
  | getOutgoingSecretRequests (requestId : String)
  | getSecretRequestByInfo (infoKey : String)
  | getUnsentSecretRequests
  | getSecretsFromInbox (secretName : String)
  | getRoomSettings (roomId : String)
  | getReceivedRoomKeyBundleData (roomId userId : String)
  | getPendingKeyBundleDetailsForRoom (roomId : String)
  | getAllRoomsPendingKeyBundles
  | hasDownloadedAllRoomKeys (roomId : String)
  deriving DecidableEq, Repr

@[reducible]
def ReadCall.Reply (Content : Type) : ReadCall → Type
  | .loadBackupKeys => BackupKeys Content
  | .nextBatchToken => Option String
  | .getCustomValue _ => Option (List UInt8)
  | .getOwnDevice => DeviceData Content
  | .getSessions _ => Option (List Content)
  | .getInboundGroupSession _ _ => Option (InboundGroupSession Content)
  | .getInboundGroupSessions | .getInboundGroupSessionsByRoomId _
  | .inboundGroupSessionsForBackup _ => List (InboundGroupSession Content)
  | .inboundGroupSessionCounts _ => RoomKeyCounts
  | .loadTrackedUsers => List TrackedUser
  | .getDevice _ _ => Option (DeviceData Content)
  | .getUserDevices _ => AList fun _ : String => DeviceData Content
  | .getUserIdentity _ => Option (UserIdentityData Content)
  | .isMessageKnown _ | .hasDownloadedAllRoomKeys _ => Bool
  | .getOutgoingSecretRequests _ | .getSecretRequestByInfo _ =>
      Option (GossipRequest Content)
  | .getUnsentSecretRequests => List (GossipRequest Content)
  | .getSecretsFromInbox _ => List String
  | .getReceivedRoomKeyBundleData _ _ =>
      Option (StoredRoomKeyBundleData Content)
  | .getWithheldSessionsByRoomId _ | .getAllRoomsPendingKeyBundles =>
      List Content
  | .loadAccount | .loadIdentity | .loadDehydratedDevicePickleKey
  | .getWithheldInfo _ _ | .getOutboundGroupSession _ | .getRoomSettings _
  | .getPendingKeyBundleDetailsForRoom _ => Option Content

section Code

variable (store : CryptoStore Content Sealed) (sdk : Sdk Content)
  (fromPickle : InboundPickle Content →
    Except String (InboundGroupSession Content))

/-- What the store does. -/
def ReadCall.code : (call : ReadCall) → StoreCode Sealed (call.Reply Content)
  | .loadAccount => store.loadAccount sdk
  | .loadIdentity => store.loadIdentity sdk
  | .loadBackupKeys => store.loadBackupKeys
  | .loadDehydratedDevicePickleKey => store.loadDehydratedDevicePickleKey
  | .nextBatchToken => store.nextBatchToken
  | .getCustomValue key => store.getCustomValue key
  | .getOwnDevice => store.getOwnDevice sdk
  | .getSessions senderKey => store.getSessions sdk senderKey
  | .getInboundGroupSession roomId sessionId =>
      store.getInboundGroupSession fromPickle roomId sessionId
  | .getInboundGroupSessions => store.getInboundGroupSessions fromPickle
  | .getInboundGroupSessionsByRoomId roomId =>
      store.getInboundGroupSessionsByRoomId fromPickle roomId
  | .inboundGroupSessionsForBackup limit =>
      store.inboundGroupSessionsForBackup fromPickle limit
  | .inboundGroupSessionCounts backupVersion =>
      store.inboundGroupSessionCounts backupVersion
  | .getWithheldInfo roomId sessionId => store.getWithheldInfo roomId sessionId
  | .getWithheldSessionsByRoomId roomId =>
      store.getWithheldSessionsByRoomId roomId
  | .getOutboundGroupSession roomId => store.getOutboundGroupSession sdk roomId
  | .loadTrackedUsers => store.loadTrackedUsers
  | .getDevice userId deviceId => store.getDevice userId deviceId
  | .getUserDevices userId => store.getUserDevices userId
  | .getUserIdentity userId => store.getUserIdentity userId
  | .isMessageKnown hash => store.isMessageKnown hash
  | .getOutgoingSecretRequests requestId =>
      store.getOutgoingSecretRequests requestId
  | .getSecretRequestByInfo infoKey => store.getSecretRequestByInfo infoKey
  | .getUnsentSecretRequests => store.getUnsentSecretRequests
  | .getSecretsFromInbox secretName => store.getSecretsFromInbox secretName
  | .getRoomSettings roomId => store.getRoomSettings roomId
  | .getReceivedRoomKeyBundleData roomId userId =>
      store.getReceivedRoomKeyBundleData roomId userId
  | .getPendingKeyBundleDetailsForRoom roomId =>
      store.getPendingKeyBundleDetailsForRoom roomId
  | .getAllRoomsPendingKeyBundles => store.getAllRoomsPendingKeyBundles
  | .hasDownloadedAllRoomKeys roomId => store.hasDownloadedAllRoomKeys roomId

end Code

/-- The session of a pickle, as the store gives it. -/
def opened (fromPickle : InboundPickle Content →
      Except String (InboundGroupSession Content))
    (session : InboundGroupSession Content) :
    Except StoreError (InboundGroupSession Content) :=
  (fromPickle session.pickle).mapError .corrupt

/-- The first things of a list, where it is limited. -/
def limitTo {α : Type} (limit : Option ℕ) (list : List α) : List α :=
  match limit with
  | none => list
  | some limit => list.take limit

namespace Record

variable (record : Record Content Sealed) (sdk : Sdk Content)
  (fromPickle : InboundPickle Content →
    Except String (InboundGroupSession Content))

def slot (slot : Slot) : Option (slot.Held Content) :=
  record.maps (.slot slot) ()

/-- The account of a pickle, if there is one. -/
def account : Except StoreError (Option Content) :=
  match record.slot .account with
  | none => .ok none
  | some pickle => ((sdk.accountFromPickle pickle).mapError .corrupt).map some

def identity : Except StoreError (Option Content) :=
  match record.slot .identity with
  | none => .ok none
  | some pickle => ((sdk.identityFromPickle pickle).mapError .corrupt).map some

/-- The account, where there must be one. -/
def accountForUnpickle : Except StoreError Content :=
  (record.account sdk).bind fun account =>
    match account with
    | some account => .ok account
    | none => .error (.corrupt "pas de compte")

/-- The chosen things of a kind, each once, in some order. -/
abbrev Lists (kind : Kind) (chosen : kind.Index → kind.Held Content → Prop)
    (entries : List (kind.Index × kind.Held Content)) : Prop :=
  Listing (record.maps (.of kind)) chosen entries

/-- The inbound sessions that are chosen, as they are opened. -/
def Opens (chosen : String × String → InboundGroupSession Content → Prop)
    (limit : Option ℕ)
    (result : Except StoreError (List (InboundGroupSession Content))) : Prop :=
  ∃ entries, record.Lists .inboundGroupSessions chosen entries ∧
    result = (limitTo limit entries).mapM fun entry => opened fromPickle entry.2

/-- The results with which a getter is right. -/
def Right : (call : ReadCall) → Except StoreError (call.Reply Content) → Prop
  | .loadAccount, result => result = record.account sdk
  | .loadIdentity, result => result = record.identity sdk
  | .loadBackupKeys, result => result = .ok
      { decryptionKey := record.slot .backupDecryptionKey
        backupVersion := record.slot .backupVersion }
  | .loadDehydratedDevicePickleKey, result =>
      result = .ok (record.slot .dehydratedDevicePickleKey)
  | .nextBatchToken, result => result = .ok (record.slot .nextBatchToken)
  | .getCustomValue key, result => result = .ok (record.maps .customValues key)
  | .getOwnDevice, result =>
      result = (record.accountForUnpickle sdk).map sdk.deviceFromAccount
  | .getSessions senderKey, result =>
      ∃ entries, record.Lists .sessions
          (fun _ session => session.senderKey = senderKey) entries ∧
        result = if entries.isEmpty then .ok none else do
          let account ← record.accountForUnpickle sdk
          let sessions ← entries.mapM fun entry =>
            (sdk.sessionFromPickle (sdk.deviceKeys account)
              entry.2.pickle).mapError .corrupt
          return some sessions
  | .getInboundGroupSession roomId sessionId, result => result =
      match record.maps (.of .inboundGroupSessions) (roomId, sessionId) with
      | none => .ok none
      | some session => (opened fromPickle session).map some
  | .getInboundGroupSessions, result =>
      record.Opens fromPickle (fun _ _ => True) none result
  | .getInboundGroupSessionsByRoomId roomId, result =>
      record.Opens fromPickle (fun id _ => id.1 = roomId) none result
  | .inboundGroupSessionsForBackup limit, result =>
      record.Opens fromPickle (fun _ session => session.pickle.backedUp = false)
        (some limit.toNat) result
  | .inboundGroupSessionCounts backupVersion, result =>
      ∃ entries, record.Lists .inboundGroupSessions (fun _ _ => True) entries ∧
        result = .ok
          { total := entries.length
            backedUp := if backupVersion.isSome then
              entries.countP (·.2.pickle.backedUp) else 0 }
  | .getWithheldInfo roomId sessionId, result =>
      result = .ok (record.maps (.of .withheldSessionInfo) (roomId, sessionId))
  | .getWithheldSessionsByRoomId roomId, result =>
      ∃ entries, record.Lists .withheldSessionInfo (fun id _ => id.1 = roomId)
          entries ∧
        result = .ok (entries.map Prod.snd)
  | .getOutboundGroupSession roomId, result => result =
      match record.maps (.of .outboundGroupSessions) roomId with
      | none => .ok none
      | some pickle => do
          let account ← record.accountForUnpickle sdk
          let session ← (sdk.outboundFromPickle (sdk.deviceId account)
            (sdk.identityKeys account) pickle).mapError .corrupt
          return some session
  | .loadTrackedUsers, result =>
      ∃ entries, record.Lists .trackedUsers (fun _ _ => True) entries ∧
        result = .ok (entries.map Prod.snd)
  | .getDevice userId deviceId, result =>
      result = .ok (record.maps (.of .devices) (userId, deviceId))
  | .getUserDevices userId, result =>
      ∃ entries, record.Lists .devices (fun id _ => id.1 = userId) entries ∧
        result = .ok ((entries.map Prod.snd).foldl
          (fun known device => known.insert device.deviceId device) ∅)
  | .getUserIdentity userId, result =>
      result = .ok (record.maps (.of .identities) userId)
  | .isMessageKnown hash, result =>
      result = .ok (record.maps (.of .messageHashes) hash).isSome
  | .getOutgoingSecretRequests requestId, result =>
      result = .ok (record.maps (.of .secretRequests) requestId)
  | .getSecretRequestByInfo infoKey, result =>
      ∃ entries, record.Lists .secretRequests
          (fun _ request => request.infoKey = infoKey) entries ∧
        result = .ok (entries.map Prod.snd).head?
  | .getUnsentSecretRequests, result =>
      ∃ entries, record.Lists .secretRequests
          (fun _ request => request.sentOut = false) entries ∧
        result = .ok (entries.map Prod.snd)
  | .getSecretsFromInbox secretName, result =>
      result = .ok (record.inbox secretName)
  | .getRoomSettings roomId, result =>
      result = .ok (record.maps (.of .roomSettings) roomId)
  | .getReceivedRoomKeyBundleData roomId userId, result =>
      result = .ok (record.maps (.of .receivedRoomKeyBundles) (roomId, userId))
  | .getPendingKeyBundleDetailsForRoom roomId, result =>
      result = .ok (record.maps (.of .roomsPendingKeyBundle) roomId)
  | .getAllRoomsPendingKeyBundles, result =>
      ∃ entries, record.Lists .roomsPendingKeyBundle (fun _ _ => True) entries ∧
        result = .ok (entries.map Prod.snd)
  | .hasDownloadedAllRoomKeys roomId, result =>
      result = .ok (record.maps (.of .downloadedRoomKeys) roomId).isSome

end Record

end MiryadCore.Matrix.Crypto
